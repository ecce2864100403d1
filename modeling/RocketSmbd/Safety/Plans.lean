import RocketSmbd.Safety.Books
import RocketSmbd.Sample

/-!
# Which READs are left to the reactor

A READ is left to the reactor as a plan, and its payload goes from the file to the socket without
passing through the process: nothing can seal or sign it.  A plan is made only for a READ that is
alone in its frame, on a channel that does not encrypt and whose response needs no signature.  The
members of a sealed frame name its session, whose channel encrypts from then on, so none of them is
planned.
-/

namespace RocketSmbd

open ByteString Vfs

variable {σ : Type}

/-- The response to the request `h` on the channel is neither sealed nor signed. -/
def ChannelState.Bare (ch : ChannelState) (h : ReqHdr) : Prop :=
  ch.encrypt = false ∧ (ch.sign = none ∨ (ch.signingRequired = false ∧ h.has flagSigned = false))

theorem ChannelState.bare_of_mustSign {channels : FinMap UInt64 ChannelState} {sid : UInt64}
    {h : ReqHdr} {ch : ChannelState} (hch : channels.lookup sid = some ch)
    (hplain : mustSign channels sid h = false) : ch.Bare h := by
  unfold mustSign at hplain
  rw [hch, Option.any_some] at hplain
  have hnot := of_decide_eq_false hplain
  rw [not_or, not_and_or, not_or] at hnot
  obtain ⟨henc, hsign⟩ := hnot
  refine ⟨by simpa using henc, ?_⟩
  rcases hsign with hsign | ⟨hrequired, hflag⟩
  · exact Or.inl (by simpa using hsign)
  · exact Or.inr ⟨by simpa using hrequired, by simpa using hflag⟩

/-- The plan `p` for the request `h` in the state `px`. -/
structure Px.Plans (h : ReqHdr) (px : Px σ) (p : ZcReadPlan) : Prop where
  read : h.command = cmdRead
  msgId : p.msgId = h.msgId
  session : p.sessionId = px.chain.sessionId
  single : px.chain.single = true
  bare : ∃ ch, px.pc.channels.lookup px.chain.sessionId = some ch ∧ ch.Bare h

section

variable (srv : Srv σ) (h : ReqHdr) (msg : Bytes) (px : Px σ)
variable {p : ZcReadPlan}

theorem answerRead_plans {ch : ChannelState} {sess : SessionInner} (hbound : px.Bound ch sess)
    (hcmd : h.command = cmdRead) : (answerRead srv h msg px sess).2 = some p → px.Plans h p := by
  refine answerRead_cases srv h msg px sess (fun q hq hp => ?_) fun _ _ hp => nomatch hp
  obtain rfl := Option.some.inj hp
  obtain ⟨-, hsingle, hplain, hmsg, hsid⟩ := read_planned srv h _ _ _ _ _ hq
  exact ⟨hcmd, hmsg, hsid, hsingle, ch, hbound.channel,
    ChannelState.bare_of_mustSign hbound.channel hplain⟩

theorem route_plans (hp : (route srv h msg px).2 = some p) : px.Plans h p := by
  unfold route at hp
  split_ifs at hp
  revert hp
  exact routeSession_rule srv h msg px (P := fun out => out.2 = some p → px.Plans h p)
    (fun _ hp => nomatch hp) (fun hp => nomatch hp) (fun _ _ _ _ _ hp => nomatch hp)
    (fun _ _ hbound hcmd _ => answerRead_plans srv h msg px hbound hcmd)
    fun _ _ _ _ hp => nomatch hp

/-- A request that is left to the reactor. -/
theorem dispatch_plans (hp : (dispatch srv h msg px).2 = some p) :
    (px.ready h).Plans (h.paid px) p ∧ (resolveChain h px.chain).foreign = false := by
  have hout := dispatch_dispatched srv h msg px
  generalize dispatch srv h msg px = out at hout hp
  cases hout with
  | replayed | foreign | refused => simp at hp
  | routed hr => exact ⟨route_plans srv _ msg _ hp, hr.2.1⟩

end

/-! ### Members -/

section

variable {srv : Srv σ} {frame : Bytes} {base : ℕ} {w w' : Walk σ} {m : Member σ}
  {ms : List (Member σ)} {p : ZcReadPlan}

/-- A member that is planned, in terms of the state in which it comes. -/
structure Member.Planned (m : Member σ) (p : ZcReadPlan) : Prop where
  read : m.hdr.command = cmdRead
  msgId : p.msgId = m.hdr.msgId
  session : p.sessionId = effective m.hdr m.px.chain
  native : (resolveChain m.hdr m.px.chain).foreign = false
  bare : ∃ ch, m.px.pc.channels.lookup p.sessionId = some ch ∧ ch.Bare m.hdr

theorem Member.plans (hp : (dispatch srv m.hdr m.msg m.px).2 = some p) : m.Planned p := by
  obtain ⟨⟨hread, hmsg, hsid, -, ch, hch, hbare⟩, hforeign⟩ := dispatch_plans srv _ _ _ hp
  exact ⟨hread, hmsg, hsid, hforeign, ch, by rw [hsid]; exact hch, hbare⟩

/-- A planned member is the only one of its frame. -/
theorem Walked.alone (hw : Walked srv frame base w ms w') (hm : m ∈ ms)
    (hp : (dispatch srv m.hdr m.msg m.px).2.isSome) :
    w.off = 0 ∧ ms = [m] ∧ memberAt frame base w = some m := by
  obtain ⟨p, hp⟩ := Option.isSome_iff_exists.1 hp
  induction hw with
  | out | cut => simp at hm
  | @step w w' m' ms h hon _ ih =>
    rcases List.mem_cons.1 hm with rfl | hm
    · obtain ⟨hoff, hnext, -⟩ := Member.planned h hp
      exact ⟨hoff, by rw [(hon.resolve_left fun hon => hon.1 hnext).1], h⟩
    · -- a later member does not start at the beginning of the frame
      have hoff : w.off + m'.hdr.next.toNat = 0 := (ih hm).1
      have hnext : m'.hdr.next = 0 := UInt32.toNat_inj.1 (by rw [UInt32.toNat_zero]; omega)
      rw [(hon.resolve_left fun hon => hon.1 hnext).1] at hm
      simp at hm

/-- A walk that ends with a plan has the one member that it was made for. -/
theorem finishWalk_plan {sealed : Bool} (hw : Walked srv frame base w ms w')
    (hnone : w.plan = none) (hp : (finishWalk srv frame base sealed w').action = .zcRead p) :
    ∃ m, ms = [m] ∧ memberAt frame base w = some m ∧ m.hdr.next = 0 ∧ m.Planned p := by
  have hplan : w'.plan = some p := by
    unfold finishWalk at hp
    dsimp only at hp
    split at hp
    · simp at hp
    · split at hp
      · next q hq => rw [hq, FrameAction.zcRead.inj hp]
      · simp at hp
  obtain ⟨m, hms, hm, hz⟩ := hw.plan hnone hplan
  exact ⟨m, hms, hm, (Member.planned hm hz).2.1, Member.plans hz⟩

end

/-! ### Frames -/

section

variable (srv : Srv σ) (sh : Shared σ) (pc : ProtoConn) (frame tx : Bytes)

/-- The first member of a frame. -/
theorem memberAt_first {sh : Shared σ} {pc : ProtoConn} {frame tx : Bytes} {tsid : Option UInt64}
    {base : ℕ} {m : Member σ} (hm : memberAt frame base (startWalk sh pc tx tsid) = some m) :
    parseHdr frame = some m.hdr ∧
      effective m.hdr m.px.chain = effective m.hdr { transformSid := tsid } := by
  unfold memberAt at hm
  split at hm
  · simp at hm
  · next h hparse =>
    dsimp only at hm
    split_ifs at hm
    obtain rfl := Option.some.inj hm
    refine ⟨hparse, ?_⟩
    unfold effective resolveChain
    split <;> rfl

theorem processSmb1_no_plan (tsid : Option UInt64) (p : ZcReadPlan) :
    (processSmb1 srv sh pc frame tx tsid).action ≠ .zcRead p := by
  unfold processSmb1
  split
  · simp
  · split
    · simp
    · split <;> simp

/-- A plaintext frame with a plan. -/
theorem processPlain_plan {tsid : Option UInt64} {p : ZcReadPlan}
    (hp : (processPlain srv sh pc frame tx tsid).action = .zcRead p) :
    ∃ m, plainMembers srv sh pc frame tx tsid = [m] ∧
      memberAt frame tx.length (startWalk sh pc tx tsid) = some m ∧ m.hdr.next = 0 ∧
      m.Planned p := by
  revert hp
  exact processPlain_cases srv sh pc frame tx tsid
    (fun _ hp => absurd hp (processSmb1_no_plan srv sh pc frame tx tsid p))
    fun _ _ _ hw hp => finishWalk_plan hw rfl hp

/-- **The content of a sealed frame is never planned.** -/
theorem processPlain_sealed (sid : UInt64) (p : ZcReadPlan) :
    (processPlain srv sh (startEncrypting pc sid) frame tx (some sid)).action ≠ .zcRead p := by
  intro hp
  obtain ⟨m, -, hm, -, -, -, hsid, hnative, ch, hch, hbare, -⟩ :=
    processPlain_plan srv sh (startEncrypting pc sid) frame tx hp
  -- the member names the session of the transform, whose channel encrypts
  have heff : effective m.hdr m.px.chain = sid := Member.session_sealed hm rfl hnative
  rw [hsid, heff, (memberAt_found hm).pc] at hch
  change (pc.channels.modify sid fun c => { c with encrypt := true }).lookup sid = some ch at hch
  rw [FinMap.lookup_modify] at hch
  obtain ⟨c, -, rfl⟩ := Option.map_eq_some_iff.1 hch
  cases hbare

theorem plainMembers_plans_le (tsid : Option UInt64) :
    ((plainMembers srv sh pc frame tx tsid).filter fun m =>
      (dispatch srv m.hdr m.msg m.px).2.isSome).length ≤ 1 := by
  obtain ⟨w, hw⟩ := plainMembers_walked srv sh pc frame tx tsid
  generalize plainMembers srv sh pc frame tx tsid = ms at hw
  cases hf : ms.filter fun m => (dispatch srv m.hdr m.msg m.px).2.isSome with
  | nil => exact Nat.zero_le 1
  | cons m rest =>
    obtain ⟨hm, hplan⟩ := List.mem_filter.1 (hf ▸ List.mem_cons_self :
      m ∈ ms.filter fun m => (dispatch srv m.hdr m.msg m.px).2.isSome)
    have hle := List.length_filter_le (fun m => (dispatch srv m.hdr m.msg m.px).2.isSome) ms
    rw [hf, (hw.alone hm hplan).2.1] at hle
    exact hle

theorem processSealed_no_plan (sid : UInt64) (enc : EncCtx) (plain : Bytes) (p : ZcReadPlan) :
    (processSealed srv sh pc sid enc plain tx).action ≠ .zcRead p := by
  rcases processSealed_cases srv sh pc tx sid enc plain with hr | ⟨plan, hr | hr⟩ <;> simp [hr]

end

/-- **Zero-copy never bypasses integrity.**  A frame ends in a zero-copy READ only if it came in the
clear and its one member is that READ, on a channel that does not encrypt and whose response to it
needs no signature.  The content of a sealed frame is never planned, and no frame makes more than
one plan. -/
theorem zero_copy_bare (srv : Srv σ) (sh : Shared σ) (pc : ProtoConn) (frame tx : Bytes) :
    (∀ p, (processFrame srv sh pc frame tx).action = .zcRead p →
      isTransform frame = false ∧ ∃ m, frameMembers srv sh pc frame tx = [m] ∧
        parseHdr frame = some m.hdr ∧ m.hdr.next = 0 ∧ m.hdr.command = cmdRead ∧
        p.msgId = m.hdr.msgId ∧ p.sessionId = effective m.hdr { transformSid := none } ∧
        ∃ ch, pc.channels.lookup p.sessionId = some ch ∧ ch.encrypt = false ∧
          (ch.sign = none ∨ (ch.signingRequired = false ∧ m.hdr.has flagSigned = false))) ∧
    (∀ sid plain inner p,
      (processPlain srv sh (startEncrypting pc sid) plain inner (some sid)).action ≠ .zcRead p) ∧
    ((frameMembers srv sh pc frame tx).filter fun m =>
      (dispatch srv m.hdr m.msg m.px).2.isSome).length ≤ 1 := by
  refine ⟨fun p => ?_, fun sid plain inner => processPlain_sealed srv sh pc plain inner sid, ?_⟩
  · refine processFrame_cases srv sh pc frame tx (fun htransform hp => ?_) (by simp)
      fun enc plain _ _ hp => absurd hp (processSealed_no_plan srv sh pc tx _ enc plain p)
    obtain ⟨m, hms, hm, hnext, hread, hmsg, hsid, -, ch, hch, hbare⟩ :=
      processPlain_plan srv sh pc frame tx hp
    rw [(memberAt_found hm).pc] at hch
    obtain ⟨hhdr, heff⟩ := memberAt_first hm
    exact ⟨htransform, m, hms, hhdr, hnext, hread, hmsg, heff ▸ hsid, ch, hch, hbare⟩
  · exact processFrame_cases srv sh pc frame tx
      (fun _ => plainMembers_plans_le srv sh pc frame tx none) (fun _ => Nat.zero_le 1)
      fun _ plain _ _ => plainMembers_plans_le srv sh _ plain [] _

namespace Sample

/-- READ of `length` bytes from the beginning of a handle. -/
def readReq (mid : UInt64) (tree : UInt32) (sid fid : UInt64) (length : UInt32) : Bytes :=
  request cmdRead 0 0 mid tree sid
    (p16 49 ++ p16 0 ++ p32 length ++ p64 0 ++ putFid fid ++ p32 0 ++ zeros 13)

/-- The client has opened the file `f`. -/
def opened : List Event :=
  connected ++ [.frame conn (createReq 0 0 3 1 2 3 fileOpenIf 0 ['f'] [])]

/-- A READ of 64 KiB, unsigned and in the clear, is left to the reactor; its channel has a signing
key and does not require signatures. -/
theorem zero_copy_bare_read :
    let w := (World.start 1 {}).run (srv false false) opened
    let frame := readReq 4 1 2 firstFid 65536
    ∃ c ∈ w.conns.lookup conn, ∃ p,
      (processFrame (srv false false) w.shared c.proto frame c.tx).action = .zcRead p ∧
      ∃ ch, c.proto.channels.lookup p.sessionId = some ch ∧ ch.encrypt = false := by
  intro w frame
  have hread : ∃ c ∈ w.conns.lookup conn,
      (processFrame (srv false false) w.shared c.proto frame c.tx).action ∉
        [FrameAction.respond, .respondClose, .close] := by
    decide +kernel
  obtain ⟨c, hc, hact⟩ := hread
  cases hp : (processFrame (srv false false) w.shared c.proto frame c.tx).action with
  | zcRead p =>
    obtain ⟨-, m, -, -, -, -, -, -, ch, hch, hopen, -⟩ :=
      (zero_copy_bare (srv false false) w.shared c.proto frame c.tx).1 p hp
    exact ⟨c, hc, p, hp, ch, hch, hopen⟩
  | _ => simp [hp] at hact

end Sample

end RocketSmbd
