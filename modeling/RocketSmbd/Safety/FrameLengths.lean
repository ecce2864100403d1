import RocketSmbd.Safety.Completions
import RocketSmbd.Safety.ResponseChains
import RocketSmbd.Smb2.Sizes

/-!
# Frames carry their length

The 24-bit NBT length of a frame is the number of bytes that follow it.  The size of the buffered
responses is checked before each member of a compound only, so a frame can pass the cap by the
padding and the longest response; sealing adds the transform header.  With the bounds of
`dispatch_bounded` that stays below `2 ^ 24`.
-/

namespace RocketSmbd

open ByteString Vfs

variable {σ : Type}

/-! ### Frames -/

/-- The 24-bit length in an NBT prefix. -/
def nbtLength (f : Bytes) : ℕ :=
  (f.getD 1 0).toNat * 65536 + (f.getD 2 0).toNat * 256 + (f.getD 3 0).toNat

/-- An NBT session message whose prefix gives the number of bytes that follow it. -/
def IsFrame (f : Bytes) : Prop :=
  4 ≤ f.length ∧ f.head? = some 0 ∧ nbtLength f = f.length - 4

instance (f : Bytes) : Decidable (IsFrame f) := inferInstanceAs (Decidable (_ ∧ _ ∧ _))

theorem nbtLength_lt (f : Bytes) : nbtLength f < 2 ^ 24 := by
  have h1 := (f.getD 1 0).toNat_lt
  have h2 := (f.getD 2 0).toNat_lt
  have h3 := (f.getD 3 0).toNat_lt
  unfold nbtLength
  omega

theorem isFrame_nbt {n : ℕ} {msg : Bytes} (hn : n = msg.length) (h : n < 2 ^ 24) :
    IsFrame (nbtPrefix n ++ msg) := by
  refine ⟨by simp [nbtPrefix], rfl, ?_⟩
  simp only [nbtLength, nbtPrefix, List.cons_append, List.nil_append, List.getD_cons_succ,
    List.getD_cons_zero, UInt8.toNat_ofNat', List.length_cons]
  omega

/-- A buffer to which nothing or one frame was added. -/
def Extends (tx tx' : Bytes) : Prop := ∃ f, tx' = tx ++ f ∧ (f = [] ∨ IsFrame f)

theorem Extends.refl (tx : Bytes) : Extends tx tx := ⟨[], (List.append_nil tx).symm, Or.inl rfl⟩

theorem extends_framed {tx msg : Bytes} (h : msg.length < 2 ^ 24) :
    Extends tx (framed tx msg) := by
  unfold framed
  split_ifs
  · exact .refl tx
  · exact ⟨nbtPrefix msg.length ++ msg, List.append_assoc .., Or.inr (isFrame_nbt rfl h)⟩

/-- The message of a sealed frame is longer than its plaintext by the transform header. -/
theorem isFrame_sealed (cr : Crypto) {plain : Bytes} (enc : EncCtx) (n : ℕ) (sid : UInt64)
    (h : transformHdrLen + plain.length < 2 ^ 24) : IsFrame (sealedFrame cr plain enc n sid) := by
  obtain ⟨ct, tag, -, hct, htag, hframe⟩ := sealedFrame_split cr plain enc n sid
  simp only [List.append_assoc] at hframe
  rw [hframe]
  refine isFrame_nbt ?_ (by rw [hct]; exact h)
  simp only [List.length_append, htag, transformAad_length, transformHdrLen]
  change _ = 4 + (16 + (32 + ct.length))
  omega

/-! ### The walk over a compound -/

/-- The longest message that a frame can be answered with: the cap on buffered responses, which is
checked before each member, the padding before the last one, and the last one. -/
def maxMessage : ℕ := compoundRespCap + 7 + maxResp

/-- The walk is within the bounds: buffer, read limit and plan, and the last response in the buffer
has a whole header. -/
structure Walk.Within (base : ℕ) (w : Walk σ) : Prop where
  tx : w.px.tx.length ≤ base + maxMessage
  prev : ∀ p ∈ w.prevStart, p + 24 ≤ w.px.tx.length
  maxRead : w.px.pc.maxRead ≤ 1048576
  plan : ∀ p ∈ w.plan, p.length ≤ 1048576

section

variable {srv : Srv σ} {frame : Bytes} {base : ℕ} {w w' : Walk σ} {m : Member σ}

section

variable (base : ℕ) (hprev : ∀ p ∈ w.prevStart, p + 24 ≤ w.px.tx.length)
include hprev

theorem linkResponse_length_le :
    (linkResponse base w.prevStart w.px.tx).length ≤ w.px.tx.length + 7 := by
  unfold linkResponse
  split
  · next p hp =>
    have hp := hprev p hp
    exact patch32_length_le _ (pad8_length_le _ _) (by omega)
  · omega

theorem le_linkResponse_length :
    w.px.tx.length ≤ (linkResponse base w.prevStart w.px.tx).length := by
  unfold linkResponse
  split
  · next p hp =>
    have hp := hprev p hp
    have hpad : w.px.tx.length ≤ (pad8 w.px.tx (base + 4)).length :=
      (le_pad8 (List.prefix_refl _) _).length_le
    dsimp only
    rw [patch32, patch_length (by rw [p32_length]; omega)]
    exact hpad
  · exact le_rfl

end

theorem Walk.Within.afterMember (h : w.Within base) (hm : memberAt frame base w = some m)
    (hsized : srv.Sized) (hnames : srv.NamesShort) (hshort : m.px.shared.NamesShort) :
    (afterMember srv w m).Within base := by
  obtain ⟨htx, hcap⟩ := memberAt_linked hm
  have hpc : m.px.pc = w.px.pc := (memberAt_found hm).pc
  have hstart : m.respStart = m.px.tx.length := (memberAt_found hm).respStart
  have hbounded := dispatch_bounded srv m.hdr m.msg m.px hsized hnames
    (hpc ▸ h.maxRead) hshort
  have hanswered := (dispatch_answers srv m.hdr m.msg m.px).tx
  have hlink := linkResponse_length_le base h.prev
  have hlink' := le_linkResponse_length base h.prev
  rw [← htx] at hlink hlink'
  unfold RocketSmbd.afterMember
  generalize dispatch srv m.hdr m.msg m.px = out at hbounded hanswered ⊢
  obtain ⟨px, z⟩ := out
  have hgrows := hbounded.grows.tx
  dsimp only at hgrows hanswered ⊢
  refine ⟨?_, fun p hp => ?_, ?_, fun p hp => ?_⟩
  · dsimp only
    unfold maxMessage
    omega
  · dsimp only at hp ⊢
    split_ifs at hp with hans
    · obtain rfl := Option.some.inj hp
      rcases hanswered with ⟨-, hsame⟩ | ⟨resp, hfresh, htx'⟩
      · rw [hsame, hstart] at hans
        exact absurd hans (lt_irrefl _)
      · have hlen := hfresh.reply.length_le
        rw [htx', List.length_append, hstart]
        omega
    · have hp := h.prev p hp
      have hkeep : m.px.tx.length ≤ px.tx.length := by
        rcases hanswered with ⟨-, hsame⟩ | ⟨resp, -, htx'⟩
        · rw [hsame]
        · rw [htx', List.length_append]
          omega
      omega
  · dsimp only
    rw [hbounded.grows.maxRead, hpc]
    exact h.maxRead
  · dsimp only at hp
    cases z with
    | none => exact h.plan p hp
    | some z =>
      obtain rfl := Option.some.inj hp
      exact UInt32.le_trans (hbounded.plan _ rfl) (hpc ▸ h.maxRead)

theorem Walked.within {ms : List (Member σ)} (hw : Walked srv frame base w ms w')
    (hsized : srv.Sized) (hnames : srv.NamesShort) (hshort : ∀ m ∈ ms, m.px.shared.NamesShort)
    (h : w.Within base) : w'.Within base := by
  induction hw with
  | out => exact h
  | cut => exact ⟨h.tx, h.prev, h.maxRead, h.plan⟩
  | step hm _ _ ih =>
    exact ih (fun m hm => hshort m (List.mem_cons_of_mem _ hm))
      (h.afterMember hm hsized hnames (hshort _ List.mem_cons_self))

end

/-! ### Plaintext and sealed frames -/

theorem Finished.length_flatten {segs fin : List Bytes} (hf : List.Forall₂ Finished segs fin) :
    fin.flatten.length = segs.flatten.length := by
  induction hf with
  | nil => rfl
  | cons hf _ ih => rw [List.flatten_cons, List.flatten_cons, List.length_append,
      List.length_append, hf.length, ih]

/-- What a frame is answered with: at most one message behind the transmit buffer, of at most
`maxMessage` bytes, or a plan for a READ of at most 1 MiB. -/
structure FrameOut.Brief (tx : Bytes) (out : FrameOut σ) : Prop where
  message : ∃ msg, out.tx = framed tx msg ∧ msg.length ≤ maxMessage
  plan : ∀ p, out.action = .zcRead p → p.length ≤ 1048576

theorem framed_nil (tx : Bytes) : framed tx [] = tx := if_pos rfl

theorem FrameOut.brief_unanswered {out : FrameOut σ} {tx : Bytes} (htx : out.tx = tx)
    (hact : ∀ p, out.action = .zcRead p → p.length ≤ 1048576) : out.Brief tx :=
  ⟨⟨[], htx.trans (framed_nil tx).symm, Nat.zero_le _⟩, hact⟩

section

variable (srv : Srv σ) (sh : Shared σ) (pc : ProtoConn) (frame tx : Bytes)

section

variable {w : Walk σ} {linked : List Bytes} {last : Option Bytes}
  (hlaid : w.Laid (tx ++ zeros 4) linked last)
include hlaid

/-- The message of a frame that is answered is what its members wrote. -/
theorem finishWalk_framed (isSealed : Bool) (hclose : w.px.pc.close = false)
    (hplan : w.plan = none) :
    ∃ msg, (finishWalk srv frame tx.length isSealed w).tx = framed tx msg ∧
      tx.length + 4 + msg.length = w.px.tx.length ∧
      (finishWalk srv frame tx.length isSealed w).action = .respond := by
  have hlen := Finished.length_flatten (hlaid.forall₂_finished srv.env.crypto isSealed)
  have htx := congrArg List.length hlaid.tx
  rw [List.length_append, List.length_append, zeros_length, ← hlen] at htx
  unfold finishWalk
  dsimp only
  rw [hclose, if_neg Bool.false_ne_true, hplan]
  dsimp only
  rw [hlaid.finished srv.env.crypto isSealed, List.length_append, List.length_append,
    zeros_length, Nat.add_assoc, Nat.add_sub_cancel_left, Nat.add_sub_cancel_left,
    finishNbtWith_part]
  generalize (finishedReplies srv.env.crypto isSealed w
    (linked.map linkedReply ++ last.toList)).flatten = msg at htx ⊢
  refine ⟨msg, ?_, by omega, rfl⟩
  unfold framed
  cases msg with
  | nil => simp
  | cons b msg => simp

theorem finishWalk_brief (hw : w.Within tx.length) (isSealed : Bool) :
    (finishWalk srv frame tx.length isSealed w).Brief tx := by
  have htake : w.px.tx.take tx.length = tx := by
    rw [hlaid.tx, List.append_assoc, List.take_left]
  cases hclose : w.px.pc.close with
  | true =>
    unfold finishWalk
    dsimp only
    rw [hclose, if_pos rfl]
    exact FrameOut.brief_unanswered htake (by simp)
  | false =>
    cases hplan : w.plan with
    | some p =>
      unfold finishWalk
      dsimp only
      rw [hclose, hplan, if_neg Bool.false_ne_true]
      refine FrameOut.brief_unanswered htake fun q hq => ?_
      obtain rfl := FrameAction.zcRead.inj hq
      exact hw.plan p hplan
    | none =>
      obtain ⟨msg, hmsg, hlen, hact⟩ := finishWalk_framed srv frame tx hlaid isSealed hclose hplan
      have htx := hw.tx
      exact ⟨⟨msg, hmsg, by omega⟩, by simp [hact]⟩

end

variable {srv} in
theorem processSmb1_brief (hsized : srv.Sized) (transformSid : Option UInt64) :
    (processSmb1 srv sh pc frame tx transformSid).Brief tx := by
  have hnbt : ∀ msg : Bytes, msg ≠ [] →
      finishNbtWith (tx ++ zeros 4 ++ msg) tx.length
        ((tx ++ zeros 4 ++ msg).length - tx.length - 4) = framed tx msg := by
    intro msg hmsg
    rw [finishNbtWith_part, framed, if_neg hmsg, List.length_append, List.length_append,
      zeros_length, Nat.add_assoc, Nat.add_sub_cancel_left, Nat.add_sub_cancel_left]
  unfold processSmb1
  split_ifs with hearly
  · exact FrameOut.brief_unanswered rfl (by simp)
  · cases smb1NegotiateDialects frame with
    | none => exact FrameOut.brief_unanswered rfl (by simp)
    | some dialects =>
      dsimp only
      split_ifs with hoffers
      · obtain ⟨htx, hfresh⟩ := negotiateRespSmb1Wildcard_tx srv sh pc { transformSid }
          (tx ++ zeros 4)
        have hgrows := (negotiateResp_grows srv wildcardHdr
          ⟨sh, pc, { transformSid }, []⟩ hsized 0x02FF 0).tx
        have hlen := hfresh.reply.length_le
        change (negotiateRespSmb1Wildcard srv ⟨sh, pc, { transformSid }, []⟩).tx.length ≤ _
          at hgrows
        generalize (negotiateRespSmb1Wildcard srv ⟨sh, pc, { transformSid }, []⟩).tx = msg at *
        refine ⟨⟨msg, ?_, hgrows.trans (by simp [maxMessage])⟩, by simp⟩
        dsimp only
        rw [htx, hnbt]
        rintro rfl
        simp at hlen
      · refine ⟨⟨smb1NegotiateRefuse frame [], ?_, ?_⟩, by simp⟩
        · dsimp only
          have happend : smb1NegotiateRefuse frame (tx ++ zeros 4) =
              tx ++ zeros 4 ++ smb1NegotiateRefuse frame [] := by
            simp [smb1NegotiateRefuse]
          rw [happend, hnbt]
          simp [smb1NegotiateRefuse, p16]
        · simp [smb1NegotiateRefuse, smb1ProtoId, maxMessage, maxResp, maxBody, compoundRespCap]
          omega

variable {srv sh pc frame tx} in
theorem processPlain_brief (hsized : srv.Sized) (hnames : srv.NamesShort)
    (hmax : pc.maxRead ≤ 1048576) {transformSid : Option UInt64}
    (hshort : ∀ m ∈ plainMembers srv sh pc frame tx transformSid, m.px.shared.NamesShort) :
    (processPlain srv sh pc frame tx transformSid).Brief tx := by
  revert hshort
  refine processPlain_cases srv sh pc frame tx transformSid
    (fun _ _ => processSmb1_brief sh pc frame tx hsized transformSid) fun _ ms w hw hshort => ?_
  obtain ⟨linked, hlaid, -⟩ := hw.laid (by simp) (startWalk_laid sh pc tx transformSid)
  refine finishWalk_brief srv frame tx hlaid (hw.within hsized hnames hshort ?_) _
  exact ⟨by simp [startWalk, maxMessage, compoundRespCap, maxResp, maxBody],
    by simp [startWalk], hmax, by simp [startWalk]⟩

/-- What a frame adds to the transmit buffer is framed, and so is a READ that it plans: the prefix
for any payload up to the planned length, with the payload behind it. -/
structure FrameOut.Framed (tx : Bytes) (out : FrameOut σ) : Prop where
  tx : Extends tx out.tx
  read : ∀ p, out.action = .zcRead p → ∀ payload : Bytes, payload.length ≤ p.length.toNat →
    IsFrame (buildReadRespPrefix p (UInt32.ofNat payload.length) ++ payload)

theorem isFrame_read (plan : ZcReadPlan) {payload : Bytes} (h : payload.length ≤ 1048576) :
    IsFrame (buildReadRespPrefix plan (UInt32.ofNat payload.length) ++ payload) := by
  have hlen : (beginResp (zeros 4) (readPlanHdr plan) Status.success false plan.treeId
      plan.sessionId ++ p16 17 ++ p8 80 ++ p8 0 ++ p32 (UInt32.ofNat payload.length) ++ p32 0 ++
      p32 0).length = 84 := by simp [beginResp]
  have hnbt : buildReadRespPrefix plan (UInt32.ofNat payload.length) =
      nbtPrefix (UInt32.ofNat 80 + UInt32.ofNat payload.length).toNat ++
        (respHdr (readPlanHdr plan) Status.success false plan.treeId plan.sessionId ++ p16 17 ++
          p8 80 ++ p8 0 ++ p32 (UInt32.ofNat payload.length) ++ p32 0 ++ p32 0) := by
    unfold buildReadRespPrefix
    dsimp only
    rw [hlen]
    simp only [beginResp, List.append_assoc]
    exact patch_part [] (zeros 4) _ _ rfl
  have htotal : (UInt32.ofNat 80 + UInt32.ofNat payload.length).toNat = 80 + payload.length := by
    rw [← UInt32.ofNat_add, UInt32.toNat_ofNat']
    omega
  rw [hnbt, htotal, List.append_assoc]
  refine isFrame_nbt ?_ (by omega)
  simp
  omega

theorem FrameOut.Brief.framed {tx : Bytes} {out : FrameOut σ} (h : out.Brief tx) :
    out.Framed tx := by
  obtain ⟨⟨msg, htx, hlen⟩, hplan⟩ := h
  refine ⟨htx ▸ extends_framed (hlen.trans_lt (by decide)), fun p hp payload hpay => ?_⟩
  exact isFrame_read p (hpay.trans (UInt32.le_iff_toNat_le.1 (hplan p hp)))

theorem sealResponse_extends (cr : Crypto) (sid : UInt64) (enc : EncCtx) (inner : Bytes)
    (h : transformHdrLen + (inner.drop 4).length < 2 ^ 24) :
    Extends tx (sealResponse cr pc sid enc inner tx).2 := by
  have hextends : ∀ e : EncCtx, Extends tx (wrapTransform cr (inner.drop 4) e sid tx).2 := by
    intro e
    rw [wrapTransform_eq]
    exact ⟨_, rfl, Or.inr (isFrame_sealed cr _ _ sid h)⟩
  unfold sealResponse
  dsimp only
  split
  · split_ifs
    · exact hextends _
    · exact hextends _
  · exact hextends _

variable {srv sh pc frame tx} in
theorem processFrame_framed (hsized : srv.Sized) (hnames : srv.NamesShort)
    (hmax : pc.maxRead ≤ 1048576)
    (hshort : ∀ m ∈ frameMembers srv sh pc frame tx, m.px.shared.NamesShort) :
    (processFrame srv sh pc frame tx).Framed tx := by
  revert hshort
  refine processFrame_cases srv sh pc frame tx
    (fun _ hshort => (processPlain_brief hsized hnames hmax hshort).framed)
    (fun _ _ => ⟨.refl tx, by simp⟩) (fun enc plain _ _ hshort => ?_)
  have hbrief := processPlain_brief hsized hnames
    (show (startEncrypting pc (transformSessionId frame)).maxRead ≤ 1048576 from hmax) hshort
  obtain ⟨msg, htx, hlen⟩ := hbrief.message
  have hinner : transformHdrLen + ((framed [] msg).drop 4).length < 2 ^ 24 := by
    have hdrop : ((framed [] msg).drop 4).length ≤ msg.length := by
      unfold RocketSmbd.framed
      split_ifs <;> simp [nbtPrefix]
    have hsmall : transformHdrLen + maxMessage < 2 ^ 24 := by decide
    omega
  rw [← htx] at hinner
  rcases processSealed_cases srv sh pc tx (transformSessionId frame) enc plain with
    hr | ⟨plan, hr | hr⟩
  · exact hr ▸ ⟨.refl tx, by simp⟩
  · exact hr ▸ ⟨.refl tx, by simp⟩
  · exact hr ▸ ⟨sealResponse_extends _ tx srv.env.crypto _ enc _ hinner, by simp⟩

end

end RocketSmbd
