import RocketSmbd.Lib.Linked
import RocketSmbd.Life.Frame
import RocketSmbd.Smb2.Signing

/-!
# The responses of a compound

The responses to the members of a frame lie one after the other behind the NBT prefix.  Before a
member is dispatched the response before it is padded and linked to where the next one will be, so
while the walk goes on all responses are linked but the last, and the last one too once a member
without a response came after it (`Walk.Laid`).  Signing changes neither lengths nor links.
-/

namespace RocketSmbd

open ByteString Linked

variable {σ : Type}
variable {linked : List Bytes} {recs : List RespRec} {segs : List Bytes}

instance (srv : Srv σ) (m : Member σ) : Decidable (m.answered srv) :=
  inferInstanceAs (Decidable (_ < _))

/-- The response of a member as its handler wrote it; empty if there is none. -/
def Member.response (srv : Srv σ) (m : Member σ) : Bytes :=
  (dispatch srv m.hdr m.msg m.px).1.tx.drop m.respStart

/-- The response of a member, if it has one. -/
def Member.reply (srv : Srv σ) (m : Member σ) : Option Bytes :=
  if m.answered srv then some (m.response srv) else none

/-- The members that got a response. -/
def responders (srv : Srv σ) (ms : List (Member σ)) : List (Member σ) :=
  ms.filter fun m => m.answered srv

/-- The offset of NextCommand in a header. -/
def nextCommandOffset : ℕ := 20

/-- A response linked to the next one. -/
def linkedReply (r : Bytes) : Bytes := link nextCommandOffset 8 r

/-! ### Linking in the buffer -/

theorem pad8_part (pre last : Bytes) (start : ℕ) (hstart : start ≤ pre.length)
    (halign : (pre.length - start) % 8 = 0) : pad8 (pre ++ last) start = pre ++ padTo 8 last := by
  have hrem : ((pre ++ last).length - start) % 8 = last.length % 8 := by
    rw [List.length_append]
    omega
  unfold pad8 padTo
  simp only [hrem]
  split
  · next hne => rw [List.append_assoc, Nat.mod_eq_of_lt (by omega : 8 - last.length % 8 < 8)]
  · next heq =>
    rw [not_not.1 heq]
    simp [zeros]

/-- The last response is linked where it lies. -/
theorem linkResponse_part {base : ℕ} (pre last : Bytes) (hbase : base + 4 ≤ pre.length)
    (halign : (pre.length - (base + 4)) % 8 = 0) :
    linkResponse base (some pre.length) (pre ++ last) = pre ++ linkedReply last := by
  unfold linkResponse linkedReply link patch32 nextCommandOffset
  dsimp only
  rw [pad8_part pre last _ hbase halign, List.length_append, Nat.add_sub_cancel_left,
    p32_ofNat, patch_append_right]

/-! ### Where the responses lie -/

/-- The responses start one after the other from `pos` on. -/
def Starts : ℕ → List RespRec → List Bytes → Prop
  | _, [], [] => True
  | pos, r :: recs, s :: segs => r.start = pos ∧ Starts (pos + s.length) recs segs
  | _, _, _ => False

theorem Starts.snoc {pos : ℕ} (h : Starts pos recs segs)
    {r : RespRec} (hr : r.start = pos + segs.flatten.length) (s : Bytes) :
    Starts pos (recs ++ [r]) (segs ++ [s]) := by
  induction recs generalizing pos segs with
  | nil =>
    cases segs with
    | nil => exact ⟨by simpa using hr, trivial⟩
    | cons _ _ => exact h.elim
  | cons r' recs ih =>
    cases segs with
    | nil => exact h.elim
    | cons s' segs =>
      refine ⟨h.1, ih h.2 ?_⟩
      rw [hr, List.flatten_cons, List.length_append, Nat.add_assoc]

/-- What the last response is does not matter for where it starts. -/
theorem Starts.change_last {pos : ℕ} {s : Bytes}
    (h : Starts pos recs (segs ++ [s])) (s' : Bytes) : Starts pos recs (segs ++ [s']) := by
  induction segs generalizing pos recs with
  | nil =>
    match recs, h with
    | [_], h => exact h
  | cons t segs ih =>
    match recs, h with
    | _ :: _, h => exact ⟨h.1, ih h.2⟩

theorem Starts.getLast {pos : ℕ} {s : Bytes} (h : Starts pos recs (segs ++ [s])) :
    recs.getLast?.map RespRec.start = some (pos + segs.flatten.length) := by
  induction segs generalizing pos recs with
  | nil =>
    match recs, h with
    | [_], h => simpa using h.1
  | cons t segs ih =>
    match recs, h with
    | r :: recs, h =>
      have htail := ih h.2
      obtain ⟨r', hr', -⟩ := Option.map_eq_some_iff.1 htail
      rw [List.getLast?_cons, hr', Option.getD_some, ← hr', htail, List.flatten_cons,
        List.length_append, Nat.add_assoc]

/-- While the walk goes on: the responses `linked` are linked to the next one, and `last` is the
response of the last member, if it has one.  `pre` is what was in the buffer before. -/
structure Walk.Laid (pre : Bytes) (w : Walk σ) (linked : List Bytes) (last : Option Bytes) :
    Prop where
  tx : w.px.tx = pre ++ (linked.map linkedReply ++ last.toList).flatten
  prev : w.prevStart = w.recs.getLast?.map RespRec.start
  starts : Starts pre.length w.recs (linked.map linkedReply ++ last.toList)
  fresh : ∀ r ∈ linked ++ last.toList, IsFresh r
  small : ∀ r ∈ linked, (padTo 8 r).length < 256 ^ 4

theorem length_linkedReply {r : Bytes} (h : IsFresh r) :
    (linkedReply r).length = (padTo 8 r).length := by
  have hlen := h.reply.length_le
  exact length_link (by unfold nextCommandOffset; omega)

theorem aligned_linked (h : ∀ r ∈ linked, IsFresh r) :
    (linked.map linkedReply).flatten.length % 8 = 0 := by
  induction linked with
  | nil => rfl
  | cons r rs ih =>
    have hr : (linkedReply r).length % 8 = 0 := by
      rw [length_linkedReply (h r List.mem_cons_self), length_padTo (by decide)]
    rw [List.map_cons, List.flatten_cons, List.length_append, Nat.add_mod, hr,
      ih fun r hr => h r (List.mem_cons_of_mem _ hr)]

section

variable {base : ℕ} {pre : Bytes} {w : Walk σ} {linked : List Bytes} {last : Option Bytes}

/-- Before a member is dispatched the response before it is linked. -/
theorem Walk.Laid.link (h : w.Laid pre linked last) (hbase : pre.length = base + 4)
    (hcap : w.px.tx.length - base ≤ compoundRespCap) :
    linkResponse base w.prevStart w.px.tx =
        pre ++ ((linked ++ last.toList).map linkedReply).flatten ∧
      ∀ r ∈ linked ++ last.toList, (padTo 8 r).length < 256 ^ 4 := by
  have hfresh : ∀ r ∈ linked, IsFresh r := fun r hr => h.fresh r (List.mem_append_left _ hr)
  -- The buffer up to the last response ends at a multiple of 8 behind the prefix.
  have halign : ∀ {rs : List Bytes}, (∀ r ∈ rs, IsFresh r) →
      ((pre ++ (rs.map linkedReply).flatten).length - (base + 4)) % 8 = 0 := by
    intro rs hrs
    have := aligned_linked hrs
    rw [List.length_append]
    omega
  cases last with
  | some r =>
    have hprev := h.prev
    rw [h.starts.getLast] at hprev
    have hsmall : (padTo 8 r).length < 256 ^ 4 := by
      have hlen : r.length ≤ w.px.tx.length - base := by
        rw [h.tx]
        simp only [Option.toList_some, List.flatten_append, List.flatten_singleton,
          List.length_append]
        omega
      have hpad : (padTo 8 r).length ≤ r.length + 8 := by
        rw [padTo, List.length_append, zeros_length]
        have := Nat.mod_lt (8 - r.length % 8) (by decide : 0 < 8)
        omega
      unfold compoundRespCap at hcap
      omega
    refine ⟨?_, fun r' hr' => ?_⟩
    · have htx : w.px.tx = (pre ++ (linked.map linkedReply).flatten) ++ r := by
        rw [h.tx]
        simp
      have hlink := linkResponse_part (pre ++ (linked.map linkedReply).flatten) r
        (by rw [List.length_append]; omega) (halign hfresh)
      rw [List.length_append] at hlink
      rw [htx, hprev, hlink]
      simp
    · rcases List.mem_append.1 hr' with hr' | hr'
      · exact h.small r' hr'
      · obtain rfl := List.mem_singleton.1 hr'
        exact hsmall
  | none =>
    simp only [Option.toList_none, List.append_nil] at *
    refine ⟨?_, h.small⟩
    rcases List.eq_nil_or_concat' linked with rfl | ⟨rs, r, rfl⟩
    · have hrecs : w.recs = [] := by
        have hstarts := h.starts
        cases hw : w.recs with
        | nil => rfl
        | cons _ _ =>
          rw [hw] at hstarts
          exact hstarts.elim
      have hprev := h.prev
      rw [hrecs] at hprev
      rw [hprev, h.tx]
      simp [linkResponse]
    · -- A response that is linked already is linked again.
      have hr : IsFresh r := hfresh r (by simp)
      have hprev := h.prev
      have hstarts := h.starts
      simp only [Option.toList_none, List.append_nil, List.map_append, List.map_cons,
        List.map_nil] at hstarts
      rw [hstarts.getLast] at hprev
      have htx : w.px.tx = (pre ++ (rs.map linkedReply).flatten) ++ linkedReply r := by
        rw [h.tx]
        simp
      have hlink := linkResponse_part (pre ++ (rs.map linkedReply).flatten) (linkedReply r)
        (by rw [List.length_append]; omega) (halign fun r hr => hfresh r (by simp [hr]))
      have hagain : linkedReply (linkedReply r) = linkedReply r := by
        have := hr.reply.length_le
        exact link_link (by decide) (by unfold nextCommandOffset; omega)
      rw [List.length_append, hagain] at hlink
      rw [htx, hprev, hlink]
      simp

variable {srv : Srv σ} {frame : Bytes} {m : Member σ}

theorem memberAt_linked (h : memberAt frame base w = some m) :
    m.px.tx = linkResponse base w.prevStart w.px.tx ∧
      w.px.tx.length - base ≤ compoundRespCap := by
  unfold memberAt at h
  split at h
  · simp at h
  · dsimp only at h
    split_ifs at h with hsmall
    obtain rfl := Option.some.inj h
    have hcap : ¬ tooLarge base w := fun hlarge => hsmall (Or.inl hlarge)
    exact ⟨rfl, not_lt.1 fun hlt => hcap (Or.inr hlt)⟩

/-- A member without a response dropped the connection, goes on as a plan, or is a CANCEL. -/
def Member.Unanswered (srv : Srv σ) (m : Member σ) : Prop :=
  (dispatch srv m.hdr m.msg m.px).1.pc.close = true ∨
    (dispatch srv m.hdr m.msg m.px).2.isSome ∨ m.hdr.command = cmdCancel

variable (srv) in
theorem Member.response_cases (hstart : m.respStart = m.px.tx.length) :
    (¬ m.answered srv ∧ (dispatch srv m.hdr m.msg m.px).1.tx = m.px.tx ∧ m.Unanswered srv) ∨
      (m.answered srv ∧ (dispatch srv m.hdr m.msg m.px).1.tx = m.px.tx ++ m.response srv ∧
        IsFresh (m.response srv)) := by
  unfold Member.answered Member.response
  rw [hstart]
  rcases (dispatch_answers srv m.hdr m.msg m.px).tx with ⟨hsilent, htx⟩ | ⟨resp, hresp, htx⟩
  · rw [htx]
    exact Or.inl ⟨lt_irrefl _, rfl, hsilent⟩
  · have hlen := hresp.reply.length_le
    rw [htx, List.drop_left, List.length_append]
    exact Or.inr ⟨by omega, rfl, hresp⟩

/-- After a member all earlier responses are linked. -/
theorem Walk.Laid.afterMember (h : w.Laid pre linked last) (hbase : pre.length = base + 4)
    (hm : memberAt frame base w = some m) :
    (afterMember srv w m).Laid pre (linked ++ last.toList) (m.reply srv) := by
  unfold Member.reply
  obtain ⟨htx, hcap⟩ := memberAt_linked hm
  obtain ⟨hlink, hsmall⟩ := h.link hbase hcap
  have hstart := (memberAt_found hm).respStart
  have hstarts : Starts pre.length w.recs ((linked ++ last.toList).map linkedReply) := by
    have hs := h.starts
    cases last with
    | none => simpa using hs
    | some r => simpa using hs.change_last (linkedReply r)
  rw [hlink] at htx
  rcases Member.response_cases srv hstart with ⟨hsilent, hout, -⟩ | ⟨hans, hout, hfresh⟩
  · rw [if_neg hsilent]
    unfold Member.answered at hsilent
    unfold RocketSmbd.afterMember
    simp only [if_neg hsilent]
    exact ⟨by rw [hout, htx]; simp, h.prev, by simpa using hstarts, by simpa using h.fresh, hsmall⟩
  · rw [if_pos hans]
    unfold Member.answered at hans
    unfold RocketSmbd.afterMember
    simp only [if_pos hans]
    refine ⟨by rw [hout, htx]; simp, by simp, ?_, ?_, hsmall⟩
    · exact hstarts.snoc (by rw [hstart, htx, List.length_append]) _
    · intro r hr
      rcases List.mem_append.1 hr with hr | hr
      · exact h.fresh r hr
      · obtain rfl := List.mem_singleton.1 hr
        exact hfresh

/-- The responses of the members, as their handlers wrote them. -/
def replies (srv : Srv σ) (ms : List (Member σ)) : List Bytes :=
  (responders srv ms).map fun m => m.response srv

theorem replies_cons (ms : List (Member σ)) :
    replies srv (m :: ms) = (m.reply srv).toList ++ replies srv ms := by
  unfold replies responders Member.reply
  by_cases hans : m.answered srv
  · rw [List.filter_cons_of_pos (by simpa using hans), if_pos hans]
    rfl
  · rw [List.filter_cons_of_neg (by simpa using hans), if_neg hans]
    rfl

theorem startWalk_laid (sh : Shared σ) (pc : ProtoConn) (tx : Bytes) (tsid : Option UInt64) :
    (startWalk sh pc tx tsid).Laid (tx ++ zeros 4) [] none :=
  ⟨by simp [startWalk], rfl, trivial, by simp, by simp⟩

/-- The response of the last member, or `last` if there is no member. -/
def lastReply (srv : Srv σ) (last : Option Bytes) : List (Member σ) → Option Bytes
  | [] => last
  | m :: ms => lastReply srv (m.reply srv) ms

/-- **Where a walk leaves the responses of its members.** -/
theorem Walked.laid {w' : Walk σ} {ms : List (Member σ)} (hw : Walked srv frame base w ms w')
    (hbase : pre.length = base + 4) (h : w.Laid pre linked last) :
    ∃ linked', w'.Laid pre linked' (lastReply srv last ms) ∧
      linked' ++ (lastReply srv last ms).toList = linked ++ last.toList ++ replies srv ms := by
  induction hw generalizing linked last with
  | out => exact ⟨linked, h, by simp [lastReply, replies, responders]⟩
  | cut =>
    exact ⟨linked, ⟨h.tx, h.prev, h.starts, h.fresh, h.small⟩,
      by simp [lastReply, replies, responders]⟩
  | step hm _ _ ih =>
    obtain ⟨linked', hlaid, heq⟩ := ih (h.afterMember hbase hm)
    refine ⟨linked', hlaid, ?_⟩
    rw [replies_cons, ← List.append_assoc]
    exact heq

end

/-! ### Signing the responses where they lie -/

/-- A response after the first post-pass. -/
def signedReply (cr : Crypto) (pc : ProtoConn) (r : RespRec) (seg : Bytes) : Bytes :=
  match signKey pc r with
  | some sc => signed cr sc seg
  | none => seg

theorem length_signedReply (cr : Crypto) (pc : ProtoConn) (r : RespRec) {seg : Bytes}
    (h : 64 ≤ seg.length) : (signedReply cr pc r seg).length = seg.length := by
  unfold signedReply
  split
  · exact signed_length cr _ h
  · rfl

/-- A response ends where the next one starts. -/
theorem Starts.withEnds_cons {pos len : ℕ} {r : RespRec} {s : Bytes}
    (h : Starts pos (r :: recs) (s :: segs)) (hlen : len = pos + (s :: segs).flatten.length) :
    withEnds len (r :: recs) = (r, pos + s.length) :: withEnds len recs := by
  match recs, segs, h with
  | [], [], _ =>
    simp only [List.flatten_cons, List.flatten_nil, List.append_nil] at hlen
    rw [withEnds, hlen, withEnds]
  | r' :: _, _ :: _, h => rw [withEnds, h.2.1]

theorem signPass_cons (cr : Crypto) (pc : ProtoConn) (re : RespRec × ℕ) (res : List (RespRec × ℕ))
    (tx : Bytes) : signPass cr pc (re :: res) tx = signPass cr pc res (signPass cr pc [re] tx) :=
  rfl

/-- The first post-pass signs each response in its place. -/
theorem signPass_laid (cr : Crypto) (pc : ProtoConn)
    (pre : Bytes) (h : Starts pre.length recs segs) (hsegs : ∀ s ∈ segs, 64 ≤ s.length) :
    signPass cr pc (withEnds (pre ++ segs.flatten).length recs) (pre ++ segs.flatten) =
      pre ++ (List.zipWith (signedReply cr pc) recs segs).flatten := by
  induction recs generalizing pre segs with
  | nil =>
    cases segs with
    | nil => rfl
    | cons _ _ => exact h.elim
  | cons r recs ih =>
    cases segs with
    | nil => exact h.elim
    | cons s segs =>
      have hs := hsegs s List.mem_cons_self
      have hstep : signPass cr pc [(r, pre.length + s.length)] (pre ++ (s :: segs).flatten) =
          (pre ++ signedReply cr pc r s) ++ segs.flatten := by
        simp only [signPass, signedReply, List.foldl_cons, List.foldl_nil]
        rw [List.flatten_cons, ← List.append_assoc, h.1]
        cases signKey pc r with
        | some sc => exact signInPlace_part cr sc pre s segs.flatten hs
        | none => rfl
      have hlen := length_signedReply cr pc r hs
      have hrest := ih (pre ++ signedReply cr pc r s)
        (show Starts (pre ++ signedReply cr pc r s).length recs segs by
          rw [List.length_append, hlen]
          exact h.2)
        fun s' hs' => hsegs s' (List.mem_cons_of_mem _ hs')
      have hsame : ((pre ++ signedReply cr pc r s) ++ segs.flatten).length =
          (pre ++ (s :: segs).flatten).length := by
        simp only [List.length_append, List.flatten_cons, hlen]
        omega
      rw [hsame] at hrest
      rw [h.withEnds_cons (List.length_append ..), signPass_cons, hstep, hrest,
        List.zipWith_cons_cons, List.flatten_cons, List.append_assoc]

/-! ### The output of a frame -/

section

variable {srv : Srv σ} {frame : Bytes} {base : ℕ} {w w' : Walk σ} {ms : List (Member σ)}

/-- If the connection is not dropped and there is no plan in the end, no member dropped it or left
a plan. -/
theorem Walked.undisturbed (hw : Walked srv frame base w ms w') (hclose : w'.px.pc.close = false)
    (hplan : w'.plan = none) :
    w.px.pc.close = false ∧ w.plan = none ∧
      ∀ m ∈ ms, (dispatch srv m.hdr m.msg m.px).1.pc.close = false ∧
        (dispatch srv m.hdr m.msg m.px).2 = none := by
  have hafter : ∀ {w : Walk σ} {m : Member σ}, memberAt frame base w = some m →
      (afterMember srv w m).px.pc.close = false → (afterMember srv w m).plan = none →
      w.px.pc.close = false ∧ w.plan = none ∧
        (dispatch srv m.hdr m.msg m.px).1.pc.close = false ∧
        (dispatch srv m.hdr m.msg m.px).2 = none := by
    intro w m hm hclose hplan
    obtain ⟨hz, hplan⟩ := Option.or_eq_none_iff.1 hplan
    refine ⟨Bool.eq_false_iff.2 fun hopen => ?_, hplan, hclose, hz⟩
    rw [← (memberAt_found hm).pc] at hopen
    have hkeeps := (dispatch_answers srv m.hdr m.msg m.px).close hopen
    exact Bool.false_ne_true (hclose.symm.trans hkeeps)
  induction hw with
  | out => exact ⟨hclose, hplan, fun m hm => absurd hm List.not_mem_nil⟩
  | cut => simp [Px.disconnect] at hclose
  | step hm _ _ ih =>
    obtain ⟨hc, hp, hrest⟩ := ih hclose hplan
    obtain ⟨hc, hp, hmember⟩ := hafter hm hc hp
    exact ⟨hc, hp, List.forall_mem_cons.2 ⟨hmember, hrest⟩⟩

/-- A CANCEL that comes to its handler. -/
def Member.cancels (cr : Crypto) (m : Member σ) : Prop :=
  m.hdr.command = cmdCancel ∧ m.px.Reaches cr m.hdr m.msg

instance (cr : Crypto) (m : Member σ) : Decidable (m.cancels cr) :=
  inferInstanceAs (Decidable (_ ∧ _))

/-- Where nothing else disturbs the frame, only a CANCEL has no response. -/
theorem Member.unanswered_iff {m : Member σ} (hstart : m.respStart = m.px.tx.length)
    (hclose : (dispatch srv m.hdr m.msg m.px).1.pc.close = false)
    (hplan : (dispatch srv m.hdr m.msg m.px).2 = none) :
    ¬ m.answered srv ↔ m.cancels srv.env.crypto := by
  constructor
  · intro hsilent
    rcases Member.response_cases srv hstart with ⟨-, htx, hwhy⟩ | ⟨hans, -⟩
    · have hcmd : m.hdr.command = cmdCancel := by
        rcases hwhy with hwhy | hwhy | hwhy
        · exact absurd (hclose.symm.trans hwhy) (by simp)
        · rw [hplan] at hwhy
          exact absurd hwhy (by simp)
        · exact hwhy
      refine ⟨hcmd, ?_⟩
      by_contra hreach
      -- Turned away it would have dropped the connection or got an error response.
      have hout := dispatch_dispatched srv m.hdr m.msg m.px
      generalize dispatch srv m.hdr m.msg m.px = out at hout htx hclose
      cases hout with
      | replayed | foreign => simp [Px.disconnect] at hclose
      | refused =>
        have hlen := congrArg List.length htx
        simp [Px.err, errResp, beginResp, errBody] at hlen
      | routed hr => exact hreach hr
    · exact absurd hans hsilent
  · rintro ⟨hcmd, hreach⟩
    unfold Member.answered
    rw [dispatch_reaches hreach, hstart]
    have hne : ¬ (cmdCancel = cmdNegotiate) ∧ ¬ (cmdCancel = cmdEcho) := by decide
    simp only [route, hcmd, if_neg hne.1, if_neg hne.2, if_true, lt_irrefl, not_false_eq_true]

end

/-- The responses as they are sent: signed where the session has a key, unless the frame is sealed
as a whole. -/
def finishedReplies (cr : Crypto) (isSealed : Bool) (w : Walk σ) (segs : List Bytes) :
    List Bytes :=
  if isSealed then segs else List.zipWith (signedReply cr w.px.pc) w.recs segs

/-- A message behind the transmit buffer `tx`, with its NBT prefix; nothing if it is empty. -/
def framed (tx msg : Bytes) : Bytes := if msg = [] then tx else tx ++ nbtPrefix msg.length ++ msg

theorem finishNbtWith_part (tx msg : Bytes) (len : ℕ) :
    finishNbtWith (tx ++ zeros 4 ++ msg) tx.length len = tx ++ nbtPrefix len ++ msg :=
  patch_part tx (zeros 4) msg (nbtPrefix len) rfl

section

variable {pre : Bytes} {w : Walk σ} {last : Option Bytes} (h : w.Laid pre linked last)
include h

theorem Walk.Laid.replies :
    ∀ seg ∈ linked.map linkedReply ++ last.toList, IsReply seg := by
  intro seg hseg
  rcases List.mem_append.1 hseg with hseg | hseg
  · obtain ⟨r, hr, rfl⟩ := List.mem_map.1 hseg
    have hreply := (h.fresh r (List.mem_append_left _ hr)).reply
    exact IsReply.patch (hreply.append _) (by simp [nextCommandOffset])
  · exact (h.fresh seg (List.mem_append_right _ hseg)).reply

/-- The buffer after the first post-pass. -/
theorem Walk.Laid.finished (cr : Crypto) (isSealed : Bool) :
    (if isSealed = true then w.px.tx
      else signPass cr w.px.pc (withEnds w.px.tx.length w.recs) w.px.tx) =
      pre ++ (finishedReplies cr isSealed w (linked.map linkedReply ++ last.toList)).flatten := by
  unfold finishedReplies
  rw [h.tx]
  cases isSealed with
  | true => rfl
  | false =>
    exact signPass_laid cr w.px.pc pre h.starts fun seg hseg => (h.replies seg hseg).length_le

end

/-- **The output of a plaintext SMB2 frame** that is answered. -/
theorem processPlain_output (srv : Srv σ) (sh : Shared σ) (pc : ProtoConn) (frame tx : Bytes)
    (transformSid : Option UInt64) (hsmb2 : frame.take 4 ≠ smb1ProtoId)
    (hact : (processPlain srv sh pc frame tx transformSid).action = .respond) :
    let ms := plainMembers srv sh pc frame tx transformSid
    let w := walk srv frame tx.length (startWalk sh pc tx transformSid)
    Walked srv frame tx.length (startWalk sh pc tx transformSid) ms w ∧
    w.px.pc.close = false ∧ w.plan = none ∧
    ∃ linked, w.Laid (tx ++ zeros 4) linked (lastReply srv none ms) ∧
      linked ++ (lastReply srv none ms).toList = replies srv ms ∧
      (processPlain srv sh pc frame tx transformSid).tx =
        framed tx (finishedReplies srv.env.crypto transformSid.isSome w
          (linked.map linkedReply ++ (lastReply srv none ms).toList)).flatten := by
  have hwalked : Walked srv frame tx.length (startWalk sh pc tx transformSid)
      (plainMembers srv sh pc frame tx transformSid)
      (walk srv frame tx.length (startWalk sh pc tx transformSid)) := by
    rw [plainMembers, if_neg hsmb2]
    exact walkFrom_walked srv frame tx.length _ _
  obtain ⟨linked, hlaid, hreplies⟩ := hwalked.laid (by simp) (startWalk_laid sh pc tx transformSid)
  unfold processPlain at hact ⊢
  rw [if_neg hsmb2] at hact ⊢
  generalize walk srv frame tx.length (startWalk sh pc tx transformSid) = w at *
  generalize plainMembers srv sh pc frame tx transformSid = ms at *
  dsimp only
  unfold finishWalk at hact ⊢
  dsimp only at hact ⊢
  cases hclose : w.px.pc.close with
  | true => rw [hclose, if_pos rfl] at hact; simp at hact
  | false =>
    rw [hclose] at hact
    cases hplan : w.plan with
    | some p => rw [hplan] at hact; simp at hact
    | none =>
      refine ⟨hwalked, rfl, rfl, linked, hlaid, by simpa using hreplies, ?_⟩
      rw [if_neg Bool.false_ne_true]
      dsimp only
      rw [hlaid.finished srv.env.crypto transformSid.isSome, List.length_append,
        List.length_append, zeros_length, Nat.add_assoc, Nat.add_sub_cancel_left,
        Nat.add_sub_cancel_left, finishNbtWith_part, framed]
      generalize (finishedReplies srv.env.crypto transformSid.isSome w
        (linked.map linkedReply ++ (lastReply srv none ms).toList)).flatten = msg
      cases msg with
      | nil => simp
      | cons b msg => simp

end RocketSmbd
