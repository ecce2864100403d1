import RocketSmbd.Life.Visits
import RocketSmbd.Safety.Books
import RocketSmbd.Sample

/-!
# The credit ledger

`creditsOut` is what the server believes its client holds.  An `Account` is what the client really
holds: one credit when it connects, less the charge of each request but CANCEL, plus the credits in
the headers of the responses.  The two agree after the first NEGOTIATE, and stay between 1 and the
window, along every run in which each CANCEL is neutral (`credits_balance`).
-/

namespace RocketSmbd

open ByteString Vfs

variable {σ : Type}

/-! ### Frames -/

/-- The credits in the headers of the responses to a frame. -/
def frameCredits (srv : Srv σ) (sh : Shared σ) (pc : ProtoConn) (frame tx : Bytes) : ℤ :=
  let out := processFrame srv sh pc frame tx
  if frame.take 4 = smb1ProtoId then
    match out.action with
    | .respond => (respCredits (out.tx.drop (tx.length + 4))).toNat
    | _ => 0
  else sentCredits srv (frameMembers srv sh pc frame tx) out.action

/-- What a client holds, and the frames it has sent. -/
structure Account where
  balance : ℤ := 1
  frames : ℕ := 0

/-- The ledger is right: before the first frame it is empty, after that it is the balance. -/
def Account.Level (a : Account) (ledger : ℤ) : Prop :=
  (a.frames = 0 ∧ ledger = 0 ∧ a.balance = 1) ∨
    (0 < a.frames ∧ ledger = a.balance ∧ 1 ≤ a.balance ∧ a.balance ≤ creditWindow)

/-- The account after a frame of connection `c`. -/
def Account.frame (srv : Srv σ) (sh : Shared σ) (c : Conn) (bytes : Bytes) (a : Account) :
    Account :=
  { balance := a.balance + frameCredits srv sh c.proto bytes c.tx -
      charges (frameMembers srv sh c.proto bytes c.tx)
    frames := a.frames + 1 }

/-- The client sends the frame `bytes`: its first one is a single NEGOTIATE, and it never spends
more than it holds. -/
structure Account.Affords (srv : Srv σ) (sh : Shared σ) (c : Conn) (bytes : Bytes) (a : Account) :
    Prop where
  first : a.frames = 0 →
    (frameMembers srv sh c.proto bytes c.tx).map (fun m => m.hdr.command) = [cmdNegotiate]
  paid : charges (frameMembers srv sh c.proto bytes c.tx) ≤ a.balance

instance (srv : Srv σ) (sh : Shared σ) (c : Conn) (bytes : Bytes) (a : Account) :
    Decidable (a.Affords srv sh c bytes) :=
  decidable_of_iff ((a.frames = 0 →
      (frameMembers srv sh c.proto bytes c.tx).map (fun m => m.hdr.command) = [cmdNegotiate]) ∧
    charges (frameMembers srv sh c.proto bytes c.tx) ≤ a.balance)
    ⟨fun h => ⟨h.1, h.2⟩, fun h => ⟨h.first, h.paid⟩⟩

/-- Every CANCEL of the frame is neutral, and it is not an SMB1 NEGOTIATE that leads to an SMB2
response. -/
structure NeutralFrame (srv : Srv σ) (sh : Shared σ) (c : Conn) (bytes : Bytes) : Prop where
  members : ∀ m ∈ frameMembers srv sh c.proto bytes c.tx, m.Neutral srv.env.crypto
  smb1 : c.proto.negotiated = true ∨ (smb1NegotiateDialects bytes).any smb1OffersSmb2 = false

instance (srv : Srv σ) (sh : Shared σ) (c : Conn) (bytes : Bytes) :
    Decidable (NeutralFrame srv sh c bytes) :=
  decidable_of_iff ((∀ m ∈ frameMembers srv sh c.proto bytes c.tx, m.Neutral srv.env.crypto) ∧
    (c.proto.negotiated = true ∨ (smb1NegotiateDialects bytes).any smb1OffersSmb2 = false))
    ⟨fun h => ⟨h.1, h.2⟩, fun h => ⟨h.members, h.smb1⟩⟩

section

variable (srv : Srv σ) (sh : Shared σ) (pc : ProtoConn) {frame : Bytes} (tx : Bytes)
  (hsmb1 : frame.take 4 = smb1ProtoId)
include hsmb1

theorem frameMembers_smb1 : frameMembers srv sh pc frame tx = [] := by
  have hplain : isTransform frame = false := by
    unfold isTransform
    rw [hsmb1]
    decide
  simp [frameMembers, plainMembers, hplain, hsmb1]

/-- An SMB1 message that leads to no SMB2 response leaves ledger and client alone. -/
theorem processFrame_smb1
    (hquiet : pc.negotiated = true ∨ (smb1NegotiateDialects frame).any smb1OffersSmb2 = false) :
    (processFrame srv sh pc frame tx).pc.creditsOut = pc.creditsOut ∧
      frameCredits srv sh pc frame tx = 0 := by
  have hplain : isTransform frame = false := by
    unfold isTransform
    rw [hsmb1]
    decide
  have hframe : processFrame srv sh pc frame tx = processSmb1 srv sh pc frame tx none := by
    simp [processFrame, processPlain, hplain, hsmb1]
  unfold frameCredits
  dsimp only
  rw [hframe, if_pos hsmb1]
  unfold processSmb1
  by_cases hneg : pc.negotiated = true
  · simp [hneg]
  · have hoffers := hquiet.resolve_left hneg
    cases hd : smb1NegotiateDialects frame with
    | none => simp [hneg]
    | some ds =>
      rw [hd] at hoffers
      have hno : smb1OffersSmb2 ds = false := hoffers
      simp [hneg, hno]

end

section

variable {srv : Srv σ} {frame : Bytes} {base : ℕ} {w w' : Walk σ}

/-- The first NEGOTIATE finds an empty ledger, and its grant is what the client holds then. -/
theorem Walked.first {m : Member σ} (hw : Walked srv frame base w [m] w')
    (hclose : w'.px.pc.close = false) (hcmd : m.hdr.command = cmdNegotiate)
    (hempty : w.px.pc.creditsOut = 0) :
    w'.px.pc.creditsOut = gains srv [m] + charges [m] ∧ 1 ≤ w'.px.pc.creditsOut ∧
      w'.px.pc.creditsOut ≤ creditWindow := by
  have hone : ∀ w₁ : Walk σ, Walked srv frame base (afterMember srv w m) [] w₁ →
      w₁.px.pc.creditsOut = (dispatch srv m.hdr m.msg m.px).1.pc.creditsOut := by
    intro w₁ hw₁
    cases hw₁ with
    | out | cut => rfl
  obtain ⟨hm, hopen, hend⟩ : memberAt frame base w = some m ∧
      (dispatch srv m.hdr m.msg m.px).1.pc.close = false ∧
      w'.px.pc.creditsOut = (dispatch srv m.hdr m.msg m.px).1.pc.creditsOut := by
    cases hw with
    | step hm _ hrest => exact ⟨hm, hrest.open_before hclose, hone _ hrest⟩
  have hzero : m.px.pc.creditsOut = 0 := by rw [(memberAt_found hm).pc, hempty]
  have hnot : m.hdr.command ≠ cmdCancel := by rw [hcmd]; decide
  obtain ⟨hgrant, hledger⟩ := Member.granted_eq (memberAt_found hm).respStart hopen hnot
    (by rw [hzero]; decide)
  obtain ⟨hpos, hle, -⟩ := @creditGrant_bounds m.px.pc.creditsOut m.hdr (by rw [hzero]; decide)
  have hafter : creditsAfterCharge m.px.pc.creditsOut m.hdr = 0 := by
    rw [hzero]
    exact max_eq_right (by omega)
  rw [hend, hledger, hafter, gains_cons, charges_cons, hgrant]
  rw [hafter] at hle
  simp only [gains, charges, List.map_nil, List.sum_nil]
  omega

end

/-- **A frame keeps the ledger right**, unless it ends the connection. -/
theorem Account.Level.frame {srv : Srv σ} {sh : Shared σ} {c : Conn} {bytes : Bytes} {a : Account}
    (h : a.Level c.proto.creditsOut) (ha : a.Affords srv sh c bytes)
    (hn : NeutralFrame srv sh c bytes)
    (hopen : (processFrame srv sh c.proto bytes c.tx).action ≠ .close) :
    (a.frame srv sh c bytes).Level (processFrame srv sh c.proto bytes c.tx).pc.creditsOut := by
  have hpaid := ha.paid
  by_cases hsmb1 : bytes.take 4 = smb1ProtoId
  · obtain ⟨hsame, hnone⟩ := processFrame_smb1 srv sh c.proto c.tx hsmb1 hn.smb1
    have hmembers := frameMembers_smb1 srv sh c.proto c.tx hsmb1
    unfold Account.frame Account.Level
    rw [hsame, hnone, hmembers]
    rcases h with ⟨hframes, -⟩ | ⟨-, h⟩
    · have hfirst := ha.first hframes
      rw [hmembers] at hfirst
      exact absurd hfirst (by simp)
    · refine Or.inr ⟨Nat.succ_pos _, ?_⟩
      simpa [charges] using h
  · obtain ⟨⟨frame, base, w, w', hw, hstart, hclose, hend⟩, hgains⟩ :=
      processFrame_books srv sh c.proto bytes c.tx hsmb1 hopen
    have hcredits : frameCredits srv sh c.proto bytes c.tx = sentCredits srv
        (frameMembers srv sh c.proto bytes c.tx)
        (processFrame srv sh c.proto bytes c.tx).action := if_neg hsmb1
    unfold Account.frame Account.Level
    rw [hcredits, hend]
    refine Or.inr ⟨Nat.succ_pos _, ?_⟩
    dsimp only
    rcases h with ⟨hframes, hempty, hbalance⟩ | ⟨-, heq, hpos, hle⟩
    · obtain ⟨m, hm, hcmd⟩ := List.map_eq_singleton_iff.1 (ha.first hframes)
      rw [hm] at hw hgains hpaid ⊢
      obtain ⟨hledger, hbounds⟩ := hw.first hclose hcmd (hstart.trans hempty)
      have hcharge : charges [m] = 1 := by
        have hne : m.hdr.command ≠ cmdCancel := by rw [hcmd]; decide
        have hone := one_le_idCount m.hdr.creditCharge
        have hsum : charges [m] = (idCount m.hdr.creditCharge : ℤ) := by
          rw [charges_cons, Member.charge, if_neg hne]
          simp [charges]
        rw [hbalance, hsum] at hpaid
        omega
      rw [hgains] at hledger
      omega
    · obtain ⟨hledger, hbounds⟩ := hw.credits hclose hn.members (by rw [hstart, heq]; exact hpaid)
        (by rw [hstart, heq]; exact hpos) (by rw [hstart, heq]; exact hle)
      rw [hstart, heq, hgains] at hledger
      omega

/-! ### Runs -/

/-- The account of the client of connection `id` after an event. -/
def Account.step (srv : Srv σ) (id : ConnId) (w : World σ) (a : Account) : Event → Account
  | .accept i => if i = id ∧ id ∉ w.conns then {} else a
  | .frame i bytes =>
    if i = id then
      match w.taker id bytes with
      | some c => a.frame srv w.shared c bytes
      | none => a
    else a
  | _ => a

/-- The account of the client of connection `id` after a run. -/
def World.account (srv : Srv σ) (id : ConnId) : World σ → Account → List Event → Account
  | _, a, [] => a
  | w, a, e :: es => World.account srv id (w.step srv e) (a.step srv id w e) es

/-- A frame of connection `id` is one that its client can send. -/
def Event.Affordable (srv : Srv σ) (id : ConnId) (w : World σ) (a : Account) : Event → Prop
  | .frame i bytes => i = id → ∀ c ∈ w.taker id bytes, a.Affords srv w.shared c bytes
  | _ => True

/-- A frame of connection `id` is neutral. -/
def Event.Neutral (srv : Srv σ) (id : ConnId) (w : World σ) : Event → Prop
  | .frame i bytes => i = id → ∀ c ∈ w.taker id bytes, NeutralFrame srv w.shared c bytes
  | _ => True

instance (srv : Srv σ) (id : ConnId) (w : World σ) (a : Account) (e : Event) :
    Decidable (e.Affordable srv id w a) :=
  match e with
  | .frame i bytes =>
    inferInstanceAs (Decidable (i = id → ∀ c ∈ w.taker id bytes, a.Affords srv w.shared c bytes))
  | .accept _ | .sent _ | .zcDone _ | .inotify _ _ | .inotifyDied _ | .wake _ | .hangup _
  | .finalize _ => isTrue trivial

instance (srv : Srv σ) (id : ConnId) (w : World σ) (e : Event) :
    Decidable (e.Neutral srv id w) :=
  match e with
  | .frame i bytes =>
    inferInstanceAs (Decidable (i = id → ∀ c ∈ w.taker id bytes, NeutralFrame srv w.shared c bytes))
  | .accept _ | .sent _ | .zcDone _ | .inotify _ _ | .inotifyDied _ | .wake _ | .hangup _
  | .finalize _ => isTrue trivial

/-- The client of connection `id` begins with a NEGOTIATE and never spends more than it holds. -/
def World.Solvent (srv : Srv σ) (id : ConnId) : World σ → Account → List Event → Prop
  | _, _, [] => True
  | w, a, e :: es =>
    e.Affordable srv id w a ∧ World.Solvent srv id (w.step srv e) (a.step srv id w e) es

instance instDecidableSolvent (srv : Srv σ) (id : ConnId) :
    ∀ (w : World σ) (a : Account) (es : List Event), Decidable (w.Solvent srv id a es)
  | _, _, [] => isTrue trivial
  | w, a, e :: es =>
    have : Decidable ((w.step srv e).Solvent srv id (a.step srv id w e) es) :=
      instDecidableSolvent srv id _ _ es
    inferInstanceAs (Decidable (_ ∧ _))

/-- The ledger of connection `id` is right while the connection lasts. -/
def World.Level (id : ConnId) (w : World σ) (a : Account) : Prop :=
  ∀ c, w.conns.lookup id = some c → c.closing = false → a.Level c.proto.creditsOut

section

variable {srv : Srv σ} {id i : ConnId} {w w' : World σ} {a : Account} {c c' : Conn}

/-- **An event keeps the ledger right.** -/
theorem World.Level.step (h : w.Level id a) (e : Event)
    (ha : e.Affordable srv id w a) (hn : e.Neutral srv id w) :
    (w.step srv e).Level id (a.step srv id w e) := by
  intro c' hc'
  have hlog : a.step srv id w e =
      frameLog id {} (fun sh c bytes a => a.frame srv sh c bytes) w a e := by
    cases e <;> rfl
  rw [hlog]
  refine World.step_logged srv
    (P := fun c (a : Account) => c.closing = false → a.Level c.proto.creditsOut)
    (fun gen _ => Or.inl ⟨rfl, rfl, rfl⟩) (fun c bytes he htaker hc hopen => ?_)
    (fun c bytes hc hopen => ?_) (fun c c' hlife hclosing hc hopen => ?_) h hc'
  · subst he
    obtain ⟨hactive, -⟩ := Option.filter_eq_some_iff.1 htaker
    have hlive : c.closing = false := by simpa using (Option.filter_eq_some_iff.1 hactive).2
    have hledger : (c.afterFrame srv w.shared bytes).proto.creditsOut = _ :=
      (congrArg ProtoConn.creditsOut (c.afterFrame_beside srv w.shared bytes) :)
    rw [hledger]
    refine (hc hlive).frame (ha rfl c htaker) (hn rfl c htaker) fun hact => ?_
    unfold Conn.afterFrame at hopen
    dsimp only at hopen
    rw [hact] at hopen
    exact absurd hopen (by simp [applyAction])
  · have halike := onInotify_alike srv w.shared.host.os c bytes
    have hledger : (onInotify srv w.shared.host.os c bytes).2.proto.creditsOut =
        c.proto.creditsOut := (congrArg ProtoConn.creditsOut halike.proto :)
    rw [hledger]
    exact hc (halike.closing ▸ hopen)
  · have hproto : c'.proto = c.proto := congrArg (fun l => l.2.1) hlife
    rw [hproto]
    exact hc (Bool.eq_false_iff.2 fun hcl => by simp [hclosing hcl] at hopen)

/-- **A run keeps the ledger right.** -/
theorem World.Level.run (h : w.Level id a) (es : List Event) (ha : w.Solvent srv id a es)
    (hn : w.Always srv (Event.Neutral srv id) es) :
    (w.run srv es).Level id (w.account srv id a es) := by
  induction es generalizing w a with
  | nil => exact h
  | cons e es ih => exact ih (h.step e ha.1 hn.1) ha.2 hn.2

end

/-- **The credit ledger is the balance of the client**, which stays within the window, in every run
in which the client begins with a NEGOTIATE and never spends more than it holds, and whose CANCELs
are neutral.  The responses that are not written by a handler carry the credits of their plan, or
none. -/
theorem credits_balance (srv : Srv σ) (workers : ℕ) (os : σ) (id : ConnId) (es : List Event)
    (hclient : (World.start workers os).Solvent srv id {} es)
    (hneutral : (World.start workers os).Always srv (Event.Neutral srv id) es) :
    (∀ c, ((World.start workers os).run srv es).conns.lookup id = some c → c.closing = false →
      0 < ((World.start workers os).account srv id {} es).frames →
        c.proto.creditsOut = ((World.start workers os).account srv id {} es).balance ∧
          1 ≤ c.proto.creditsOut ∧ c.proto.creditsOut ≤ creditWindow) ∧
    (∀ (p : ZcReadPlan) (n st : UInt32),
      respCredits ((buildReadRespPrefix p n).drop 4) = p.credits ∧
        respCredits ((buildReadErr p st).drop 4) = p.credits) ∧
    (∀ (channels : FinMap UInt64 ChannelState) (info : AsyncMeta) (st : UInt32)
      (events : List (UInt32 × Str)) (outLen : UInt32),
      respCredits ((finalizeAsync srv.env.crypto channels info
        (notifyFinalMsg info st events outLen) 4).drop 4) = 0) ∧
    ∀ (b : BreakMsg) (sign : Option SignCtx),
      respCredits ((buildLeaseBreak srv.env.crypto b sign).drop 4) = 0 := by
  refine ⟨fun c hc hopen hframes => ?_, respCredits_plan,
    respCredits_final srv.env.crypto, respCredits_leaseBreak srv.env.crypto⟩
  have hstart : (World.start workers os).Level id {} := fun c hc => nomatch hc
  rcases hstart.run es hclient hneutral c hc hopen with ⟨hzero, -⟩ | ⟨-, heq, hpos, hle⟩
  · omega
  · rw [heq]
    exact ⟨rfl, hpos, hle⟩

namespace Sample

/-- The client negotiates, sends an ECHO, and cancels a request. -/
def cancelling : List Event :=
  [.accept conn, .frame conn (negotiateReq 0 0 0 0), .frame conn (echoReq 0 0 1 0),
    .frame conn (cancelReq 0 1 0)]

theorem credits_balance_cancelling :
    ((World.start 1 {}).account (srv false false) conn {} cancelling).frames = 3 ∧
      ∀ c ∈ ((World.start 1 {}).run (srv false false) cancelling).conns.lookup conn,
        c.closing = false →
          c.proto.creditsOut =
            ((World.start 1 {}).account (srv false false) conn {} cancelling).balance := by
  have hframes : ((World.start 1 {}).account (srv false false) conn {} cancelling).frames = 3 := by
    decide +kernel
  refine ⟨hframes, fun c hc hopen => ?_⟩
  exact ((credits_balance (srv false false) 1 {} conn cancelling (by decide +kernel)
    (by decide +kernel)).1 c hc hopen (by rw [hframes]; omega)).1

/-- A CANCEL that asks for 64 credits. -/
def greedyCancel : Bytes := patch (cancelReq 0 1 0) 14 (p16 64)

/-- **A CANCEL makes ledger and balance drift apart.**  The client holds one credit, and the server
believes that it holds 64. -/
theorem cancel_drifts :
    let es := [.accept conn, .frame conn (negotiateReq 0 0 0 0), .frame conn greedyCancel]
    (World.start 1 {}).Solvent (srv false false) conn {} es ∧
      0 < ((World.start 1 {}).account (srv false false) conn {} es).frames ∧
      ((World.start 1 {}).account (srv false false) conn {} es).balance = 1 ∧
      ∃ c ∈ ((World.start 1 {}).run (srv false false) es).conns.lookup conn,
        c.closing = false ∧ c.proto.creditsOut = 64 := by
  decide +kernel

end Sample

end RocketSmbd
