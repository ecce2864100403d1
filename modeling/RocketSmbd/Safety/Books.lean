import RocketSmbd.Life.Notify
import RocketSmbd.Safety.Compounds
import RocketSmbd.Smb2.Grants

/-!
# What a frame does to the credits

A request is charged and granted credits in the server's ledger (`creditsOut`), and the client is
granted what the header of its response carries.  `Walked.credits` says that the members of a frame
move ledger and client alike, if every CANCEL among them is let through and granted what it is
charged: a CANCEL is entered in the ledger like any request, but has no response.
`processFrame_books` relates a frame to the walk over its members.
-/

namespace RocketSmbd

open ByteString Vfs

variable {σ : Type}

/-! ### Requests -/

/-- What a member costs the client; a CANCEL is free. -/
def Member.charge (m : Member σ) : ℤ :=
  if m.hdr.command = cmdCancel then 0 else (idCount m.hdr.creditCharge : ℤ)

/-- The credits in the response of a member, or in the plan for one. -/
def Member.granted (srv : Srv σ) (m : Member σ) : ℤ :=
  ((m.reply srv).elim 0 fun r => (respCredits r).toNat : ℕ) +
    ((dispatch srv m.hdr m.msg m.px).2.elim 0 fun p => p.credits.toNat : ℕ)

/-- If the member is a CANCEL, it comes to its handler and is granted what it is charged. -/
def Member.Neutral (cr : Crypto) (m : Member σ) : Prop :=
  m.hdr.command = cmdCancel → m.cancels cr ∧
    creditsAfterCharge m.px.pc.creditsOut m.hdr + creditGrant m.px.pc.creditsOut m.hdr =
      m.px.pc.creditsOut

instance (cr : Crypto) (m : Member σ) : Decidable (m.Neutral cr) :=
  inferInstanceAs (Decidable (_ → _))

theorem one_le_idCount (charge : UInt16) : 1 ≤ idCount charge := le_max_right _ _

/-- A grant is at least 1, and does not exceed the window once the charge is paid. -/
theorem creditGrant_bounds {c : ℤ} (h : ReqHdr) (hc : c ≤ creditWindow) :
    1 ≤ creditGrant c h ∧ creditsAfterCharge c h + creditGrant c h ≤ creditWindow ∧
      0 ≤ creditsAfterCharge c h := by
  have hid := one_le_idCount h.creditCharge
  unfold creditGrant creditsAfterCharge creditWindow at *
  dsimp only
  omega

/-- Claiming MessageIds leaves the ledger alone, accounting enters charge and grant. -/
theorem prepare_credits (h : ReqHdr) (px : Px σ) :
    (prepare h px).2.pc.creditsOut =
        creditsAfterCharge px.pc.creditsOut h + creditGrant px.pc.creditsOut h ∧
      (prepare h px).1.credits = UInt16.ofNat (creditGrant px.pc.creditsOut h).toNat := by
  obtain ⟨msgLow, msgSeen, hpc⟩ := claimIds_fields h px.pc
  unfold prepare accountCredits
  rw [hpc]
  exact ⟨rfl, rfl⟩

/-- The grant fits in the field of the header. -/
theorem toNat_grant {c : ℤ} (h : ReqHdr) (hc : c ≤ creditWindow) :
    ((UInt16.ofNat (creditGrant c h).toNat).toNat : ℤ) = creditGrant c h := by
  obtain ⟨hpos, hle, hnonneg⟩ := creditGrant_bounds h hc
  have hlt : (creditGrant c h).toNat < 2 ^ 16 := by
    unfold creditWindow at hle
    omega
  rw [UInt16.toNat_ofNat_of_lt' hlt]
  omega

/-- A CANCEL that comes to its handler is accounted, and has no response. -/
theorem dispatch_cancel {srv : Srv σ} {h : ReqHdr} {msg : Bytes} {px : Px σ}
    (hcmd : h.command = cmdCancel) (hr : px.Reaches srv.env.crypto h msg) :
    (dispatch srv h msg px).2 = none ∧ (dispatch srv h msg px).1.tx = px.tx ∧
      (dispatch srv h msg px).1.pc.creditsOut =
        creditsAfterCharge px.pc.creditsOut h + creditGrant px.pc.creditsOut h := by
  have hledger := (prepare_credits h px).1
  have hne : ¬ (cmdCancel = cmdNegotiate) ∧ ¬ (cmdCancel = cmdEcho) := by decide
  rw [dispatch_reaches hr]
  simp only [route, hcmd, if_neg hne.1, if_neg hne.2, if_true]
  exact ⟨trivial, trivial, hledger⟩

section

variable {srv : Srv σ} {m : Member σ} (hstart : m.respStart = m.px.tx.length)

include hstart

theorem Member.reply_none (htx : (dispatch srv m.hdr m.msg m.px).1.tx = m.px.tx) :
    m.reply srv = none := by
  have hno : ¬ m.answered srv := by
    unfold Member.answered
    rw [htx, hstart]
    exact lt_irrefl _
  exact if_neg hno

theorem Member.reply_some {resp : Bytes} (hne : resp ≠ [])
    (htx : (dispatch srv m.hdr m.msg m.px).1.tx = m.px.tx ++ resp) : m.reply srv = some resp := by
  have hans : m.answered srv := by
    have hlen : 0 < resp.length := List.length_pos_iff.2 hne
    unfold Member.answered
    rw [htx, hstart, List.length_append]
    omega
  have hresp : m.response srv = resp := by
    unfold Member.response
    rw [htx, hstart, List.drop_left]
  rw [Member.reply, if_pos hans, hresp]

variable (hclose : (dispatch srv m.hdr m.msg m.px).1.pc.close = false)

include hclose

/-- The grant of a request that is not a CANCEL goes to the client. -/
theorem Member.granted_eq (hcmd : m.hdr.command ≠ cmdCancel)
    (hc : m.px.pc.creditsOut ≤ creditWindow) :
    m.granted srv = creditGrant m.px.pc.creditsOut m.hdr ∧
      (dispatch srv m.hdr m.msg m.px).1.pc.creditsOut =
        creditsAfterCharge m.px.pc.creditsOut m.hdr + creditGrant m.px.pc.creditsOut m.hdr := by
  obtain ⟨hledger, hcredits⟩ := prepare_credits m.hdr m.px
  have hgrant := toNat_grant m.hdr hc
  rw [← hcredits] at hgrant
  have hsettled := dispatch_settled srv m.hdr m.msg m.px
  obtain ⟨out, hout⟩ : ∃ out, dispatch srv m.hdr m.msg m.px = out := ⟨_, rfl⟩
  unfold Member.granted
  rw [hout] at hsettled hclose ⊢
  cases hsettled with
  | dropped hdrop => exact absurd (hclose.symm.trans hdrop) (by simp)
  | answered resp hsame hne hresp htx =>
    refine ⟨?_, hsame.trans hledger⟩
    rw [Member.reply_some hstart hne (by rw [hout]; exact htx)]
    simp [hresp, hgrant]
  | planned p hsame htx hp =>
    refine ⟨?_, hsame.trans hledger⟩
    rw [Member.reply_none hstart (by rw [hout]; exact htx)]
    simp [hp, hgrant]
  | silent _ hcancel => exact absurd hcancel hcmd

/-- **A request moves ledger and balance alike**, if it is neutral and paid for. -/
theorem Member.credits (hneutral : m.Neutral srv.env.crypto)
    (hpaid : m.charge ≤ m.px.pc.creditsOut) (hpos : 1 ≤ m.px.pc.creditsOut)
    (hc : m.px.pc.creditsOut ≤ creditWindow) :
    (dispatch srv m.hdr m.msg m.px).1.pc.creditsOut =
        m.px.pc.creditsOut + (m.granted srv - m.charge) ∧
      0 ≤ m.granted srv ∧ 1 ≤ (dispatch srv m.hdr m.msg m.px).1.pc.creditsOut ∧
      (dispatch srv m.hdr m.msg m.px).1.pc.creditsOut ≤ creditWindow := by
  by_cases hcmd : m.hdr.command = cmdCancel
  · -- charge and grant cancel out in the ledger, and the client sees neither
    obtain ⟨hcancels, hsame⟩ := hneutral hcmd
    obtain ⟨hplan, htx, hledger⟩ := dispatch_cancel hcmd hcancels.2
    have hnone : m.granted srv = 0 := by
      rw [Member.granted, Member.reply_none hstart htx, hplan]
      rfl
    have hfree : m.charge = 0 := if_pos hcmd
    rw [hledger, hsame, hnone, hfree]
    omega
  · obtain ⟨hgrant, hledger⟩ := Member.granted_eq hstart hclose hcmd hc
    obtain ⟨hone, hle, -⟩ := creditGrant_bounds m.hdr hc
    have hcharge : m.charge = (idCount m.hdr.creditCharge : ℤ) := if_neg hcmd
    have hafter : creditsAfterCharge m.px.pc.creditsOut m.hdr =
        m.px.pc.creditsOut - m.charge := by
      rw [hcharge] at hpaid ⊢
      exact max_eq_left (by omega)
    rw [hledger, hgrant]
    omega

end

/-! ### Walks -/

section

variable {srv : Srv σ} {frame : Bytes} {base : ℕ} {w w' : Walk σ} {ms : List (Member σ)}

/-- What the members change in the balance of the client. -/
def gains (srv : Srv σ) (ms : List (Member σ)) : ℤ :=
  (ms.map fun m => m.granted srv - m.charge).sum

/-- What the members cost the client. -/
def charges (ms : List (Member σ)) : ℤ := (ms.map Member.charge).sum

theorem gains_cons (m : Member σ) (ms : List (Member σ)) :
    gains srv (m :: ms) = m.granted srv - m.charge + gains srv ms := rfl

theorem charges_cons (m : Member σ) (ms : List (Member σ)) :
    charges (m :: ms) = m.charge + charges ms := rfl

theorem Member.charge_nonneg (m : Member σ) : 0 ≤ m.charge := by
  unfold Member.charge
  split_ifs <;> omega

theorem charges_nonneg (ms : List (Member σ)) : 0 ≤ charges ms :=
  List.sum_nonneg fun c hc => by
    obtain ⟨m, -, rfl⟩ := List.mem_map.1 hc
    exact m.charge_nonneg

section

variable (hw : Walked srv frame base w ms w') (hclose : w'.px.pc.close = false)
include hw hclose

/-- A connection that is open after a walk was open before. -/
theorem Walked.open_before :
    w.px.pc.close = false := by
  have hafter : ∀ {w : Walk σ} {m : Member σ}, memberAt frame base w = some m →
      (afterMember srv w m).px.pc.close = false → w.px.pc.close = false := by
    intro w m hm hclose
    refine Bool.eq_false_iff.2 fun hopen => ?_
    rw [← (memberAt_found hm).pc] at hopen
    have hkeeps := (dispatch_answers srv m.hdr m.msg m.px).close hopen
    exact Bool.false_ne_true (hclose.symm.trans hkeeps)
  induction hw with
  | out => exact hclose
  | cut => simp [Px.disconnect] at hclose
  | step hm _ _ ih => exact hafter hm (ih hclose)

/-- **A walk over neutral members that are paid for moves ledger and balance alike.** -/
theorem Walked.credits
    (hneutral : ∀ m ∈ ms, m.Neutral srv.env.crypto) (hpaid : charges ms ≤ w.px.pc.creditsOut)
    (hpos : 1 ≤ w.px.pc.creditsOut) (hc : w.px.pc.creditsOut ≤ creditWindow) :
    w'.px.pc.creditsOut = w.px.pc.creditsOut + gains srv ms ∧ 1 ≤ w'.px.pc.creditsOut ∧
      w'.px.pc.creditsOut ≤ creditWindow := by
  induction hw with
  | out | cut => exact ⟨(add_zero _).symm, hpos, hc⟩
  | @step w w' m ms hm _ hrest ih =>
    have hafter := hrest.open_before hclose
    have hrestNonneg := charges_nonneg ms
    rw [← (memberAt_found hm).pc] at hpaid hpos hc ⊢
    rw [charges_cons] at hpaid
    obtain ⟨heq, hgranted, hpos', hc'⟩ := Member.credits (memberAt_found hm).respStart
      hafter (hneutral _ List.mem_cons_self) (by omega) hpos hc
    obtain ⟨hend, hbounds⟩ := ih hclose (fun m hm => hneutral m (List.mem_cons_of_mem _ hm))
      (by change charges ms ≤ (dispatch srv m.hdr m.msg m.px).1.pc.creditsOut; omega) hpos' hc'
    refine ⟨?_, hbounds⟩
    rw [hend, gains_cons]
    change (dispatch srv m.hdr m.msg m.px).1.pc.creditsOut + _ = _
    rw [heq]
    ring

end

/-! ### Plans -/

theorem memberAt_single {m : Member σ} (h : memberAt frame base w = some m)
    (hsingle : m.px.chain.single = true) : w.off = 0 ∧ m.hdr.next = 0 := by
  unfold memberAt at h
  split at h
  · simp at h
  · dsimp only at h
    split_ifs at h
    obtain rfl := Option.some.inj h
    exact of_decide_eq_true hsingle

/-- A member that is left to the reactor is alone in its frame, has no response yet, and its
channel does not encrypt. -/
theorem Member.planned {m : Member σ} {p : ZcReadPlan} (hm : memberAt frame base w = some m)
    (hp : (dispatch srv m.hdr m.msg m.px).2 = some p) :
    w.off = 0 ∧ m.hdr.next = 0 ∧ m.reply srv = none ∧
      (resolveChain m.hdr m.px.chain).foreign = false ∧
      ∀ ch ∈ m.px.pc.channels.lookup (resolveChain m.hdr m.px.chain).sessionId,
        ch.encrypt = false := by
  have hforeign : (resolveChain m.hdr m.px.chain).foreign = false := by
    have hout := dispatch_dispatched srv m.hdr m.msg m.px
    generalize dispatch srv m.hdr m.msg m.px = out at hout hp
    cases hout with
    | replayed | foreign | refused => simp at hp
    | routed hr => exact hr.2.1
  have hsettled := dispatch_settled srv m.hdr m.msg m.px
  obtain ⟨out, hout⟩ : ∃ out, dispatch srv m.hdr m.msg m.px = out := ⟨_, rfl⟩
  rw [hout] at hsettled hp
  cases hsettled with
  | dropped | answered | silent => simp at hp
  | planned q _ htx _ hsingle hplain =>
    have hkept : (resolveChain m.hdr m.px.chain).single = m.px.chain.single := by
      unfold resolveChain
      split <;> rfl
    obtain ⟨hoff, hnext⟩ := memberAt_single hm (hkept ▸ hsingle)
    refine ⟨hoff, hnext, ?_, hforeign, fun ch hch => ?_⟩
    · exact Member.reply_none (memberAt_found hm).respStart (by rw [hout]; exact htx)
    · unfold mustSign at hplain
      rw [Option.mem_def] at hch
      dsimp only at hplain
      rw [hch] at hplain
      have hnot := of_decide_eq_false hplain
      exact Bool.eq_false_iff.2 fun henc => hnot (Or.inl henc)

/-- A member of a sealed frame that is not refused is of the session of the transform. -/
theorem Member.session_sealed {m : Member σ} {sid : UInt64} (hm : memberAt frame base w = some m)
    (hsid : w.px.chain.transformSid = some sid)
    (hnative : (resolveChain m.hdr m.px.chain).foreign = false) :
    (resolveChain m.hdr m.px.chain).sessionId = sid := by
  have hkept : (resolveChain m.hdr m.px.chain).transformSid = some sid := by
    rw [← hsid, ← (memberAt_found hm).transform]
    unfold resolveChain
    split <;> rfl
  unfold Chain.foreign at hnative
  rw [hkept] at hnative
  simpa using hnative

/-- A member with others after it is not left to the reactor. -/
theorem Member.unplanned {m : Member σ} (hm : memberAt frame base w = some m)
    (hon : m.goesOn frame w) (hnone : w.plan = none) : (afterMember srv w m).plan = none := by
  change (dispatch srv m.hdr m.msg m.px).2.or w.plan = none
  rw [hnone, Option.or_none]
  cases hz : (dispatch srv m.hdr m.msg m.px).2 with
  | none => rfl
  | some p => exact absurd (Member.planned hm hz).2.1 hon.1

/-- A walk with a plan in the end has one member. -/
theorem Walked.plan (hw : Walked srv frame base w ms w') (hnone : w.plan = none) {p : ZcReadPlan}
    (hp : w'.plan = some p) :
    ∃ m, ms = [m] ∧ memberAt frame base w = some m ∧
      (dispatch srv m.hdr m.msg m.px).2 = some p := by
  induction hw with
  | out | cut => simp [hnone] at hp
  | @step w w' m ms hm hon hrest ih =>
    rcases hon with hon | ⟨rfl, rfl⟩
    · obtain ⟨m', -, hm', hz⟩ := ih (Member.unplanned hm hon hnone) hp
      -- a later member does not start at the beginning of the frame
      have hoff : w.off + m.hdr.next.toNat = 0 := (Member.planned hm' hz).1
      have hnext : m.hdr.next = 0 := UInt32.toNat_inj.1 (by rw [UInt32.toNat_zero]; omega)
      exact absurd hnext hon.1
    · refine ⟨m, rfl, hm, ?_⟩
      have hor : (dispatch srv m.hdr m.msg m.px).2.or w.plan = some p := hp
      rwa [hnone, Option.or_none] at hor

/-! ### Frames -/

/-- The credits in the responses to the members `ms`, given what the frame leads to. -/
def sentCredits (srv : Srv σ) (ms : List (Member σ)) : FrameAction → ℤ
  | .respond => ((replies srv ms).map fun r => ((respCredits r).toNat : ℤ)).sum
  | .zcRead p => p.credits.toNat
  | .respondClose => 0
  | .close => 0

/-- Without plans, what the members gain is in their responses. -/
theorem gains_replies (hplans : ∀ m ∈ ms, (dispatch srv m.hdr m.msg m.px).2 = none) :
    gains srv ms = sentCredits srv ms .respond - charges ms := by
  induction ms with
  | nil => rfl
  | cons m ms ih =>
    have hm : m.granted srv =
        ((m.reply srv).toList.map fun r => ((respCredits r).toNat : ℤ)).sum := by
      rw [Member.granted, hplans m List.mem_cons_self]
      cases m.reply srv <;> simp
    have hrest := ih fun m' hm' => hplans m' (List.mem_cons_of_mem _ hm')
    unfold sentCredits at hrest ⊢
    rw [gains_cons, charges_cons, replies_cons, List.map_append, List.sum_append, hrest, hm]
    ring

end

/-- A frame of requests that leaves the connection open is a walk over its members, and gains what
its responses carry. -/
structure Books (srv : Srv σ) (pc : ProtoConn) (ms : List (Member σ)) (out : FrameOut σ) :
    Prop where
  walked : ∃ frame base w w', Walked srv frame base w ms w' ∧ w.px.pc.creditsOut = pc.creditsOut ∧
    w'.px.pc.close = false ∧ out.pc.creditsOut = w'.px.pc.creditsOut
  gains : gains srv ms = sentCredits srv ms out.action - charges ms

section

variable (srv : Srv σ) (sh : Shared σ) (pc : ProtoConn) (frame tx : Bytes)

/-- The books of a plaintext frame.  In a sealed one a plan would be without a response, but its
channel encrypts, so there is none. -/
theorem processPlain_books (tsid : Option UInt64) (hsmb2 : frame.take 4 ≠ smb1ProtoId)
    (hopen : (processPlain srv sh pc frame tx tsid).action ≠ .close)
    (henc : ∀ sid ∈ tsid, ∃ ch, pc.channels.lookup sid = some ch ∧ ch.encrypt = true) :
    Books srv pc (plainMembers srv sh pc frame tx tsid) (processPlain srv sh pc frame tx tsid) ∧
      (tsid.isSome → (processPlain srv sh pc frame tx tsid).action = .respond) := by
  revert hopen
  refine processPlain_cases srv sh pc frame tx tsid (fun hsmb1 => absurd hsmb1 hsmb2)
    fun _ ms w' hw hopen => ?_
  unfold finishWalk at hopen ⊢
  dsimp only at hopen ⊢
  cases hclose : w'.px.pc.close with
  | true =>
    rw [hclose, if_pos rfl] at hopen
    exact absurd rfl hopen
  | false =>
    rw [if_neg Bool.false_ne_true]
    cases hplan : w'.plan with
    | none =>
      refine ⟨⟨⟨frame, _, _, w', hw, rfl, hclose, ?_⟩, ?_⟩, fun _ => rfl⟩
      · exact (congrArg ProtoConn.creditsOut (preauthPass_steady w'.px.pc _ _ _ _) :)
      · exact gains_replies fun m hm => ((hw.undisturbed hclose hplan).2.2 m hm).2
    | some p =>
      obtain ⟨m, rfl, hm, hz⟩ := hw.plan rfl hplan
      obtain ⟨-, -, hreply, hforeign, hplain⟩ := Member.planned hm hz
      have hgains : gains srv [m] = p.credits.toNat - charges [m] := by
        rw [gains_cons, charges_cons, Member.granted, hreply, hz]
        simp [gains, charges]
      refine ⟨⟨⟨frame, _, _, w', hw, rfl, hclose, rfl⟩, hgains⟩, fun htsid => ?_⟩
      obtain ⟨sid, rfl⟩ := Option.isSome_iff_exists.1 htsid
      obtain ⟨ch, hch, hencrypt⟩ := henc sid rfl
      rw [Member.session_sealed hm rfl hforeign, (memberAt_found hm).pc] at hplain
      exact absurd ((hplain ch hch).symm.trans hencrypt) Bool.false_ne_true

theorem processSealed_books (sid : UInt64) (enc : EncCtx) (plain : Bytes)
    (hch : (pc.channels.lookup sid).isSome)
    (hopen : (processSealed srv sh pc sid enc plain tx).action ≠ .close) :
    Books srv pc (plainMembers srv sh (startEncrypting pc sid) plain [] (some sid))
      (processSealed srv sh pc sid enc plain tx) := by
  have hencrypt : ∀ s ∈ some sid, ∃ ch, (startEncrypting pc sid).channels.lookup s = some ch ∧
      ch.encrypt = true := by
    rintro s ⟨⟩
    obtain ⟨ch, hch⟩ := Option.isSome_iff_exists.1 hch
    exact ⟨{ ch with encrypt := true }, by simp [startEncrypting, FinMap.lookup_modify, hch], rfl⟩
  unfold processSealed at hopen ⊢
  dsimp only at hopen ⊢
  by_cases hsmb1 : plain.take 4 = smb1ProtoId
  · -- an SMB1 message in a sealed frame drops the connection
    have hact : (processPlain srv sh (startEncrypting pc sid) plain [] (some sid)).action =
        .close := by simp [processPlain, processSmb1, hsmb1]
    rw [hact] at hopen
    exact absurd rfl hopen
  · by_cases hact : (processPlain srv sh (startEncrypting pc sid) plain [] (some sid)).action =
        .close
    · rw [hact] at hopen
      exact absurd rfl hopen
    · obtain ⟨hbooks, hrespond⟩ := processPlain_books srv sh (startEncrypting pc sid) plain []
        (some sid) hsmb1 hact hencrypt
      have hact := hrespond rfl
      obtain ⟨⟨frame', base, w, w', hw, hstart, hclose, hend⟩, hgains⟩ := hbooks
      rw [hact] at hgains ⊢
      dsimp only
      split_ifs
      · exact ⟨⟨frame', base, w, w', hw, hstart, hclose, hend⟩, hgains⟩
      · refine ⟨⟨frame', base, w, w', hw, hstart, hclose, ?_⟩, hgains⟩
        exact (congrArg ProtoConn.creditsOut (sealResponse_steady _ _ _ _ _ _) :).trans hend

/-- **The books of a frame** that leaves the connection open and is not an SMB1 message. -/
theorem processFrame_books (hsmb2 : frame.take 4 ≠ smb1ProtoId)
    (hopen : (processFrame srv sh pc frame tx).action ≠ .close) :
    Books srv pc (frameMembers srv sh pc frame tx) (processFrame srv sh pc frame tx) := by
  revert hopen
  refine processFrame_cases srv sh pc frame tx
    (fun _ hopen => (processPlain_books srv sh pc frame tx none hsmb2 hopen (by simp)).1)
    (fun _ hopen => absurd rfl hopen)
    (fun enc plain _ hof => processSealed_books srv sh pc tx _ enc plain ?_)
  obtain ⟨ch, hch, -⟩ := openFrame_enc hof
  rw [hch]
  rfl

end

end RocketSmbd
