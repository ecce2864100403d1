import RocketSmbd.Safety.Compounds
import RocketSmbd.Sample

/-!
# Response frames are well-formed compounds

Behind its NBT prefix the output of a frame is a chain of responses.  Following NextCommand from
the first header visits each response that was written, in order, at a multiple of 8 bytes, and
the last one ends the message.  There is one exception: NextCommand of a response is set before
the next member is dispatched, so a compound that ends in a member without a response, which can
only be a CANCEL, leaves the last response linked to nothing.
-/

namespace RocketSmbd

open ByteString Linked

variable {σ : Type}

/-- The record is the response `written` followed by fewer than 8 zeros; flags, NextCommand and
signature are those of the finished frame. -/
structure Carries (written record : Bytes) : Prop where
  head : record.take 16 = written.take 16
  ids : record.extract 24 48 = written.extract 24 48
  body : ∃ pad < 8, record.drop 64 = written.drop 64 ++ zeros pad

/-- Following NextCommand in `msg` visits exactly the responses `written`, each at a multiple of 8
bytes, with NextCommand zero in the last one only, which ends the message. -/
structure WellFormed (written : List Bytes) (msg : Bytes) : Prop where
  visits : List.Forall₂ Carries written (follow nextCommandOffset (msg.length + 1) msg)
  last : ∀ pre r post, follow nextCommandOffset (msg.length + 1) msg = pre ++ r :: post →
    (distance nextCommandOffset r = 0 ↔ post = [])
  aligned : ∀ pre r post, follow nextCommandOffset (msg.length + 1) msg = pre ++ r :: post →
    pre.flatten.length % 8 = 0
  ends : (follow nextCommandOffset (msg.length + 1) msg).flatten = msg

/-! ### What the finished responses carry -/

theorem carries_self (r : Bytes) : Carries r r := ⟨rfl, rfl, 0, by decide, by simp [zeros]⟩

theorem carries_linked {r : Bytes} (h : 64 ≤ r.length) : Carries r (linkedReply r) := by
  have hle : r.length ≤ (padTo 8 r).length := length_le_padTo
  unfold linkedReply link nextCommandOffset
  set v := leBytes 4 (padTo 8 r).length
  have hv : v.length = 4 := leBytes_length ..
  refine ⟨?_, ?_, (8 - r.length % 8) % 8, Nat.mod_lt _ (by decide), ?_⟩
  · have htake : ∀ b : Bytes, b.take 16 = b.extract 0 16 := fun b => by
      simp [List.extract_eq_take_drop]
    rw [htake, htake, extract_patch_before _ _ _ _ _ (by omega) (by omega), padTo,
      extract_append_left r _ 0 16 (by omega)]
  · rw [extract_patch_after _ _ _ _ _ (by omega) (by omega), padTo,
      extract_append_left r _ 24 48 (by omega)]
  · rw [drop_patch _ _ _ _ (by omega) (by omega), padTo, List.drop_append_of_le_length h]

theorem Carries.signedReply {written seg : Bytes} (hc : Carries written seg) (h : 64 ≤ seg.length)
    (cr : Crypto) (pc : ProtoConn) (r : RespRec) : Carries written (signedReply cr pc r seg) := by
  unfold RocketSmbd.signedReply
  split
  · exact ⟨(take_signed cr _ h).trans hc.head,
      (extract_signed cr _ h (by decide) le_rfl).trans hc.ids, by
        rw [drop_signed cr _ h]
        exact hc.body⟩
  · exact hc

theorem distance_signedReply (cr : Crypto) (pc : ProtoConn) (r : RespRec) {seg : Bytes}
    (h : 64 ≤ seg.length) :
    distance nextCommandOffset (signedReply cr pc r seg) = distance nextCommandOffset seg := by
  unfold signedReply
  split
  · rw [distance, extract_signed cr _ h (by decide) (by decide), distance]
  · rfl

/-- What the post-pass does with each response, it does with all of them in their order. -/
theorem Starts.forall₂_zipWith {pos : ℕ} {recs : List RespRec} {segs : List Bytes}
    (h : Starts pos recs segs) {f : RespRec → Bytes → Bytes} {R : Bytes → Bytes → Prop}
    (hf : ∀ r, ∀ seg ∈ segs, R seg (f r seg)) :
    List.Forall₂ R segs (List.zipWith f recs segs) := by
  induction recs generalizing pos segs with
  | nil =>
    cases segs with
    | nil => exact .nil
    | cons _ _ => exact h.elim
  | cons r recs ih =>
    cases segs with
    | nil => exact h.elim
    | cons s segs =>
      exact .cons (hf r s List.mem_cons_self)
        (ih h.2 fun r seg hseg => hf r seg (List.mem_cons_of_mem _ hseg))

/-- What a finished response has in common with the one in the buffer. -/
structure Finished (seg seg' : Bytes) : Prop where
  length : seg'.length = seg.length
  distance : distance nextCommandOffset seg' = distance nextCommandOffset seg
  carries : ∀ written, Carries written seg → Carries written seg'

theorem Finished.carries_all {written segs fin : List Bytes}
    (hc : List.Forall₂ Carries written segs) (hf : List.Forall₂ Finished segs fin) :
    List.Forall₂ Carries written fin := by
  induction hc generalizing fin with
  | nil =>
    cases hf with
    | nil => exact .nil
  | cons hc _ ih =>
    cases hf with
    | cons hf hfs => exact .cons (hf.carries _ hc) (ih hfs)

/-- What depends on the length and the link only, the finished responses have too. -/
theorem Finished.forall_mem {P : ℕ → ℕ → Prop} {segs fin : List Bytes}
    (hf : List.Forall₂ Finished segs fin)
    (h : ∀ seg ∈ segs, P seg.length (Linked.distance nextCommandOffset seg)) :
    ∀ seg ∈ fin, P seg.length (Linked.distance nextCommandOffset seg) := by
  induction hf with
  | nil => exact h
  | cons hf _ ih =>
    obtain ⟨hseg, hsegs⟩ := List.forall_mem_cons.1 h
    refine List.forall_mem_cons.2 ⟨?_, ih hsegs⟩
    rwa [hf.length, hf.distance]

theorem Finished.dropLast {segs fin : List Bytes} (hf : List.Forall₂ Finished segs fin) :
    List.Forall₂ Finished segs.dropLast fin.dropLast := by
  rw [List.dropLast_eq_take, List.dropLast_eq_take, ← hf.length_eq]
  exact List.forall₂_take _ hf

section

variable {pre : Bytes} {w : Walk σ} {linked : List Bytes} {last : Option Bytes}
variable {fin : List Bytes}

section

variable (h : w.Laid pre linked last)
include h

theorem Walk.Laid.forall₂_finished (cr : Crypto) (isSealed : Bool) :
    List.Forall₂ Finished (linked.map linkedReply ++ last.toList)
      (finishedReplies cr isSealed w (linked.map linkedReply ++ last.toList)) := by
  unfold finishedReplies
  cases isSealed with
  | true => exact List.forall₂_same.2 fun seg _ => ⟨rfl, rfl, fun _ hc => hc⟩
  | false =>
    refine h.starts.forall₂_zipWith fun r seg hseg => ?_
    have hlen := (h.replies seg hseg).length_le
    exact ⟨length_signedReply cr _ r hlen, distance_signedReply cr _ r hlen,
      fun written hc => hc.signedReply hlen cr _ r⟩

theorem Walk.Laid.forall₂_carries :
    List.Forall₂ Carries (linked ++ last.toList) (linked.map linkedReply ++ last.toList) := by
  refine List.rel_append (List.forall₂_map_right_iff.2 (List.forall₂_same.2 fun r hr => ?_))
    (List.forall₂_same.2 fun r _ => carries_self r)
  exact carries_linked (h.fresh r (List.mem_append_left _ hr)).reply.length_le

theorem Walk.Laid.isLinked :
    ∀ seg ∈ linked.map linkedReply, IsLinked nextCommandOffset seg := by
  intro seg hseg
  obtain ⟨r, hr, rfl⟩ := List.mem_map.1 hseg
  have hlen := (h.fresh r (List.mem_append_left _ hr)).reply.length_le
  exact isLinked_link (by unfold nextCommandOffset; omega) (h.small r hr)

/-- There are no more finished responses than bytes. -/
theorem Walk.Laid.count_le
    (hf : List.Forall₂ Finished (linked.map linkedReply ++ last.toList) fin) :
    fin.length ≤ fin.flatten.length := by
  have hpos := Finished.forall_mem (P := fun len _ => 0 < len) hf fun seg hseg =>
    lt_of_lt_of_le (by decide) (h.replies seg hseg).length_le
  clear hf
  induction fin with
  | nil => exact le_rfl
  | cons seg segs ih =>
    obtain ⟨hseg, hsegs⟩ := List.forall_mem_cons.1 hpos
    rw [List.flatten_cons, List.length_append, List.length_cons]
    have := ih hsegs
    omega

end

/-- If the last member has a response, the message is well formed. -/
theorem Walk.Laid.wellFormed {r : Bytes} (h : w.Laid pre linked (some r))
    (hf : List.Forall₂ Finished (linked.map linkedReply ++ [r]) fin) :
    WellFormed (linked ++ [r]) fin.flatten := by
  have hr : distance nextCommandOffset r = 0 := by
    rw [distance, nextCommandOffset, (h.fresh r (by simp)).next]
    decide
  have hchained : Chained nextCommandOffset fin :=
    (chained_append_last h.isLinked hr).congr (hf.imp fun _ _ hf => ⟨hf.length, hf.distance⟩)
  have hfollow : follow nextCommandOffset (fin.flatten.length + 1) fin.flatten = fin :=
    follow_of_chained hchained (Nat.le_succ_of_le (h.count_le hf))
  have haligned : ∀ seg ∈ fin.dropLast, seg.length % 8 = 0 := by
    refine Finished.forall_mem (P := fun len _ => len % 8 = 0) (Finished.dropLast hf) ?_
    rw [List.dropLast_concat]
    intro seg hseg
    obtain ⟨r', hr', rfl⟩ := List.mem_map.1 hseg
    rw [length_linkedReply (h.fresh r' (List.mem_append_left _ hr')), length_padTo (by decide)]
  exact ⟨hfollow.symm ▸ Finished.carries_all h.forall₂_carries hf,
    fun _ _ _ heq => hchained.distance_eq_zero (hfollow.symm.trans heq),
    fun _ _ _ heq => aligned_of_dropLast haligned (hfollow.symm.trans heq), by rw [hfollow]⟩

/-- If it has none, the last response is linked to nothing. -/
theorem Walk.Laid.not_wellFormed (h : w.Laid pre linked none)
    (hf : List.Forall₂ Finished (linked.map linkedReply) fin) :
    ¬ WellFormed linked fin.flatten := by
  intro hwell
  have hlinked : ∀ seg ∈ fin, IsLinked nextCommandOffset seg := by
    have hall := Finished.forall_mem (P := fun len d => nextCommandOffset + 4 ≤ len ∧ d = len) hf
      fun seg hseg => ⟨(h.isLinked seg hseg).length, (h.isLinked seg hseg).distance⟩
    exact fun seg hseg => ⟨(hall seg hseg).1, (hall seg hseg).2⟩
  have hcount := h.count_le (by simpa using hf)
  have hvisits := hwell.visits.length_eq
  rw [follow_of_dangling hlinked (Nat.lt_succ_of_le hcount), List.length_append,
    ← hf.length_eq, List.length_map] at hvisits
  simp at hvisits

end

/-! ### The frame -/

theorem lastReply_concat (srv : Srv σ) (last : Option Bytes) (ms : List (Member σ))
    (m : Member σ) : lastReply srv last (ms ++ [m]) = m.reply srv := by
  induction ms generalizing last with
  | nil => rfl
  | cons _ _ ih => exact ih _

theorem Walked.respStart {srv : Srv σ} {frame : Bytes} {base : ℕ} {w w' : Walk σ}
    {ms : List (Member σ)} (hw : Walked srv frame base w ms w') :
    ∀ m ∈ ms, m.respStart = m.px.tx.length := by
  induction hw with
  | out | cut => simp
  | step hm _ _ ih => exact List.forall_mem_cons.2 ⟨(memberAt_found hm).respStart, ih⟩

/-- The responses that processing a plaintext frame writes, in the order of the requests: the one
to an SMB1 NEGOTIATE, or those of the members that respond. -/
def plainReplies (srv : Srv σ) (sh : Shared σ) (pc : ProtoConn) (frame tx : Bytes)
    (transformSid : Option UInt64) : List Bytes :=
  if frame.take 4 = smb1ProtoId then
    [(negotiateRespSmb1Wildcard srv ⟨sh, pc, { transformSid }, []⟩).tx]
  else replies srv (plainMembers srv sh pc frame tx transformSid)

/-- The last member of the frame that is dispatched is a CANCEL that comes to its handler. -/
def EndsInCancel (cr : Crypto) (ms : List (Member σ)) : Prop := ∃ m ∈ ms.getLast?, m.cancels cr

instance (cr : Crypto) (ms : List (Member σ)) : Decidable (EndsInCancel cr ms) :=
  inferInstanceAs (Decidable (∃ m ∈ ms.getLast?, m.cancels cr))

/-- The message behind the NBT prefix, if there is one. -/
theorem framed_ne {tx msg : Bytes} (h : framed tx msg ≠ tx) :
    framed tx msg = tx ++ nbtPrefix msg.length ++ msg ∧ msg ≠ [] := by
  unfold framed at h ⊢
  split_ifs at h ⊢ with hmsg
  · exact absurd rfl h
  · exact ⟨rfl, hmsg⟩

theorem negotiateRespSmb1Wildcard_tx (srv : Srv σ) (sh : Shared σ) (pc : ProtoConn) (chain : Chain)
    (tx : Bytes) :
    (negotiateRespSmb1Wildcard srv ⟨sh, pc, chain, tx⟩).tx =
        tx ++ (negotiateRespSmb1Wildcard srv ⟨sh, pc, chain, []⟩).tx ∧
      IsFresh (negotiateRespSmb1Wildcard srv ⟨sh, pc, chain, []⟩).tx := by
  have hdialect : ¬ (0x02FF : UInt16) = 0x0311 := by decide
  have hfresh : ∀ (maxRead : UInt32) (now : UInt64), IsFresh (negotiateBody srv maxRead 0x02FF 0 now
      [] 0 ([] ++ respHdr wildcardHdr Status.success false 0 0)) := by
    intro maxRead now
    obtain ⟨body, hbody⟩ := negotiateBody_eq srv maxRead 0x02FF 0 now [] []
      (respHdr wildcardHdr Status.success false 0 0) (respHdr_length ..)
    have hbody : negotiateBody srv maxRead 0x02FF 0 now [] 0
        ([] ++ respHdr wildcardHdr Status.success false 0 0) = _ := hbody
    rw [hbody]
    exact isFresh_respHdr _ _ _ _ _ body
  unfold negotiateRespSmb1Wildcard negotiateResp
  simp only [if_neg hdialect, Px.ask, Px.withOs, beginResp]
  exact ⟨negotiateBody_append srv _ _ _ _ _ 0 tx _, hfresh _ _⟩

/-- The wildcard response to an SMB1 NEGOTIATE is a chain of one. -/
theorem processSmb1_wellFormed (srv : Srv σ) (sh : Shared σ) (pc : ProtoConn) (frame tx : Bytes)
    (transformSid : Option UInt64) (hsmb1 : frame.take 4 = smb1ProtoId)
    (hact : (processPlain srv sh pc frame tx transformSid).action = .respond) :
    ∃ msg, (processPlain srv sh pc frame tx transformSid).tx = tx ++ nbtPrefix msg.length ++ msg ∧
      WellFormed (plainReplies srv sh pc frame tx transformSid) msg := by
  unfold processPlain at hact ⊢
  rw [if_pos hsmb1] at hact ⊢
  rw [plainReplies, if_pos hsmb1]
  obtain ⟨htx, hfresh⟩ := negotiateRespSmb1Wildcard_tx srv sh pc { transformSid } (tx ++ zeros 4)
  unfold processSmb1 at hact ⊢
  split_ifs at hact ⊢ with hearly
  cases hd : smb1NegotiateDialects frame with
  | none => rw [hd] at hact; simp at hact
  | some dialects =>
    rw [hd] at hact
    dsimp only at hact ⊢
    split_ifs at hact ⊢ with hoffers
    set msg := (negotiateRespSmb1Wildcard srv ⟨sh, pc, { transformSid }, []⟩).tx
    refine ⟨msg, ?_, ?_⟩
    · dsimp only
      rw [htx, List.length_append, List.length_append, zeros_length, Nat.add_assoc,
        Nat.add_sub_cancel_left, Nat.add_sub_cancel_left, finishNbtWith_part]
    · have hlast : distance nextCommandOffset msg = 0 := by
        rw [distance, nextCommandOffset, hfresh.next]
        decide
      have hchained : Chained nextCommandOffset [msg] := .last hlast
      have hfollow : follow nextCommandOffset (msg.length + 1) msg = [msg] := by
        simpa using follow_of_chained hchained (Nat.le_add_left 1 msg.length)
      have honly : ∀ b ∈ [msg].dropLast, b.length % 8 = 0 := by simp
      exact ⟨hfollow ▸ .cons (carries_self msg) .nil,
        fun _ _ _ heq => hchained.distance_eq_zero (hfollow.symm.trans heq),
        fun _ _ _ heq => aligned_of_dropLast honly (hfollow.symm.trans heq), by simp [hfollow]⟩

/-- **Response frames are well-formed compounds.**  The output of an answered plaintext frame is
one message behind its NBT prefix.  Following NextCommand visits exactly the responses written,
aligned and to the end of the message, if and only if the frame does not end in a CANCEL. -/
theorem processPlain_wellFormed_iff (srv : Srv σ) (sh : Shared σ) (pc : ProtoConn)
    (frame tx : Bytes) (transformSid : Option UInt64)
    (hact : (processPlain srv sh pc frame tx transformSid).action = .respond)
    (hout : (processPlain srv sh pc frame tx transformSid).tx ≠ tx) :
    ∃ msg, (processPlain srv sh pc frame tx transformSid).tx = tx ++ nbtPrefix msg.length ++ msg ∧
      (WellFormed (plainReplies srv sh pc frame tx transformSid) msg ↔
        ¬ EndsInCancel srv.env.crypto (plainMembers srv sh pc frame tx transformSid)) := by
  by_cases hsmb1 : frame.take 4 = smb1ProtoId
  · obtain ⟨msg, htx, hwell⟩ := processSmb1_wellFormed srv sh pc frame tx transformSid hsmb1 hact
    refine ⟨msg, htx, iff_of_true hwell ?_⟩
    rw [plainMembers, if_pos hsmb1]
    simp [EndsInCancel]
  · obtain ⟨hwalked, hclose, hplan, linked, hlaid, hreplies, htx⟩ :=
      processPlain_output srv sh pc frame tx transformSid hsmb1 hact
    rw [htx] at hout ⊢
    obtain ⟨hframed, hmsg⟩ := framed_ne hout
    refine ⟨_, hframed, ?_⟩
    rw [plainReplies, if_neg hsmb1]
    have hundisturbed := (hwalked.undisturbed hclose hplan).2.2
    have hstarts := hwalked.respStart
    have hfinished := hlaid.forall₂_finished srv.env.crypto transformSid.isSome
    generalize finishedReplies _ _ _ _ = fin at *
    generalize plainMembers srv sh pc frame tx transformSid = ms at *
    rcases List.eq_nil_or_concat' ms with rfl | ⟨ms, m, rfl⟩
    · -- No member, no message.
      have hnone : linked = [] := by
        simpa [replies, responders, lastReply] using hreplies
      subst hnone
      cases hfinished
      exact absurd rfl hmsg
    · have hm : m ∈ ms ++ [m] := by simp
      have hcancel := Member.unanswered_iff (hstarts m hm) (hundisturbed m hm).1
        (hundisturbed m hm).2
      have hends : EndsInCancel srv.env.crypto (ms ++ [m]) ↔ m.cancels srv.env.crypto := by
        simp [EndsInCancel]
      rw [hends, ← hcancel, not_not]
      rw [lastReply_concat, Member.reply] at hlaid hreplies hfinished
      rw [← hreplies]
      by_cases hans : m.answered srv
      · simp only [if_pos hans, Option.toList_some] at hlaid hfinished ⊢
        exact iff_of_true (hlaid.wellFormed hfinished) hans
      · simp only [if_neg hans, Option.toList_none, List.append_nil] at hlaid hfinished ⊢
        exact iff_of_false (hlaid.not_wellFormed hfinished) hans

open Sample in
/-- Two ECHO requests in one frame on a fresh connection. -/
theorem processPlain_wellFormed_echoes :
    let out := processPlain (srv false false) (World.start 1 {}).shared
      (ProtoConn.new (srv false false) 0 0 0) (echoReq 0 72 0 0 ++ zeros 4 ++ echoReq 0 0 1 0)
      [] none
    ∃ msg, out.tx = nbtPrefix msg.length ++ msg ∧ ∃ written, written.length = 2 ∧
      WellFormed written msg := by
  obtain ⟨msg, htx, hiff⟩ := processPlain_wellFormed_iff (srv false false)
    (World.start 1 {}).shared (ProtoConn.new (srv false false) 0 0 0)
    (echoReq 0 72 0 0 ++ zeros 4 ++ echoReq 0 0 1 0) [] none (by decide +kernel)
    (by decide +kernel)
  exact ⟨msg, htx, _, by decide +kernel, hiff.2 (by decide +kernel)⟩

open Sample in
/-- An ECHO and a CANCEL in one frame on a fresh connection: NextCommand of the one response points
behind the end of the message. -/
theorem echo_cancel_dangling :
    let frame := echoReq 0 72 0 0 ++ zeros 4 ++ cancelReq 0 1 0
    let sh := (World.start 1 {}).shared
    let pc := ProtoConn.new (srv false false) 0 0 0
    let out := processPlain (srv false false) sh pc frame [] none
    out.action = .respond ∧ (out.tx.drop 4).length = 72 ∧
      distance nextCommandOffset (out.tx.drop 4) = 72 ∧
      ¬ WellFormed (plainReplies (srv false false) sh pc frame [] none) (out.tx.drop 4) := by
  refine ⟨by decide +kernel, by decide +kernel, by decide +kernel, fun hwell => ?_⟩
  have hvisits := hwell.visits.length_eq
  revert hvisits
  decide +kernel

end RocketSmbd
