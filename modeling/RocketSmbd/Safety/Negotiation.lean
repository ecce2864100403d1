import RocketSmbd.Life.Ids
import RocketSmbd.Sample

/-!
# Negotiation and sessions

`negotiate` refuses a second NEGOTIATE, but nothing makes a SESSION_SETUP wait for the first one,
and the preauth pass at the end of a frame takes in every NEGOTIATE that got a response.  In runs
whose frames come in order (`Event.Orderly`) the terms of a connection are settled before its first
session: `negotiation_settled`.
-/

namespace RocketSmbd

open ByteString Vfs

variable {σ : Type}

/-- What NEGOTIATE settles: dialect, cipher, preauth hash and the client's parameters. -/
def ProtoConn.terms (pc : ProtoConn) : UInt16 × UInt16 × Bytes × Option ClientNeg :=
  (pc.dialect, pc.cipher, pc.preauthNeg, pc.clientNeg)

/-- Some channel is established. -/
def HasSession (channels : FinMap UInt64 ChannelState) : Prop :=
  ∃ sid ch, channels.lookup sid = some ch ∧ ch.established = true

instance (channels : FinMap UInt64 ChannelState) : Decidable (HasSession channels) :=
  decidable_of_iff (0 < channels.count fun _ ch => ch.established) FinMap.count_pos

section

variable {channels : FinMap UInt64 ChannelState} {sid : UInt64}

theorem HasSession.of_insert {ch ch' : ChannelState} (h : HasSession (channels.insert sid ch'))
    (hch : channels.lookup sid = some ch)
    (hest : ch'.established = true → ch.established = true) : HasSession channels := by
  obtain ⟨sid', c, hc, he⟩ := h
  rw [FinMap.lookup_insert] at hc
  split_ifs at hc with hsid
  · obtain rfl := Option.some.inj hc
    exact ⟨sid, ch, hch, hest he⟩
  · exact ⟨sid', c, hc, he⟩

theorem HasSession.of_erase (h : HasSession (channels.erase sid)) : HasSession channels := by
  obtain ⟨sid', c, hc, he⟩ := h
  rw [FinMap.lookup_erase] at hc
  split_ifs at hc
  exact ⟨sid', c, hc, he⟩

end

/-! ### Moves -/

/-- The moves of a frame that arrives with this value of `negotiated`: setups come after the
negotiation, and a NEGOTIATE is answered only before it. -/
def Phase (negotiated : Bool) : Label → Prop
  | .setup _ => negotiated = true
  | .chainNeg => negotiated = false
  | _ => True

def Core.terms (k : Core) : UInt16 × UInt16 × Bytes × Option ClientNeg :=
  (k.dialect, k.cipher, k.preauthNeg, k.clientNeg)

section

variable {srv : Srv σ} {l : Label} {k k' : Core}

theorem Move.terms_kept (h : Move srv l k k') (hl : Phase true l) (hk : k.negotiated = true) :
    k'.negotiated = true ∧ k'.terms = k.terms := by
  cases h with
  | negotiate _ _ _ hneg => exact absurd hk (by simp [hneg])
  | chainNeg => exact absurd (show true = false from hl) (Ne.symm Bool.false_ne_true)
  | _ => exact ⟨hk, rfl⟩

theorem Move.no_session (h : Move srv l k k') (hl : Phase false l)
    (hk : ¬ HasSession k.channels) : ¬ HasSession k'.channels := by
  cases h with
  | extend sid ch _ hch | decrypt sid ch _ hch | sealHeld sid ch _ hch
  | completeSealed p _ _ ch _ _ _ hch => exact fun h => hk (h.of_insert hch fun he => he)
  | logoff | teardown => exact fun h => hk h.of_erase
  | negotiate | request | chainNeg | sealGone | silent | completeOpen | forget => exact hk
  | _ => exact absurd (show false = true from hl) Bool.false_ne_true

theorem Moves.terms_kept (h : Moves srv (fun l _ => Phase true l) k k')
    (hk : k.negotiated = true) : k'.negotiated = true ∧ k'.terms = k.terms := by
  refine h.induct (P := fun a => a.negotiated = true ∧ a.terms = k.terms)
    (fun l a b hl hm ha => ?_) ⟨hk, rfl⟩
  obtain ⟨hneg, hterms⟩ := hm.terms_kept hl ha.1
  exact ⟨hneg, hterms.trans ha.2⟩

theorem Moves.no_session (h : Moves srv (fun l _ => Phase false l) k k')
    (hk : ¬ HasSession k.channels) : ¬ HasSession k'.channels :=
  h.induct (P := fun a => ¬ HasSession a.channels) (fun _ _ _ hl hm ha => hm.no_session hl ha) hk

end

/-! ### Frames in order -/

/-- The member comes in order on a connection that had negotiated or not when its frame arrived:
a SESSION_SETUP after the negotiation, and a NEGOTIATE after it not with a signature that the
session it names refuses. -/
def Member.Orderly (srv : Srv σ) (negotiated : Bool) (m : Member σ) : Prop :=
  (m.hdr.command = cmdSessionSetup → negotiated = true) ∧
    (m.hdr.command = cmdNegotiate → negotiated = true →
      admitted srv.env.crypto m.px.pc m.hdr m.msg (resolveChain m.hdr m.px.chain) = true)

instance (srv : Srv σ) (negotiated : Bool) (m : Member σ) : Decidable (m.Orderly srv negotiated) :=
  inferInstanceAs (Decidable (_ ∧ _))

/-- The requests of a frame come in order. -/
def Event.Orderly (srv : Srv σ) (w : World σ) : Event → Prop
  | .frame id bytes => ∀ c ∈ w.taker id bytes,
    ∀ m ∈ frameMembers srv w.shared c.proto bytes c.tx, m.Orderly srv c.proto.negotiated
  | _ => True

instance (srv : Srv σ) (w : World σ) : ∀ e : Event, Decidable (e.Orderly srv w)
  | .frame id bytes => inferInstanceAs (Decidable (∀ c ∈ w.taker id bytes, _))
  | .accept _ | .sent _ | .zcDone _ | .inotify _ _ | .inotifyDied _ | .wake _ | .hangup _
  | .finalize _ => isTrue trivial

/-- The connection in slot `id` has negotiated. -/
def World.settledAt (w : World σ) (id : ConnId) : Bool :=
  (w.conns.lookup id).any fun c => c.proto.negotiated

section

variable (srv : Srv σ)
variable {w : World σ}

/-- A second NEGOTIATE gets no answer but the refusal of its signature. -/
theorem Member.negotiate_unanswered {m : Member σ} (hstart : m.respStart = m.px.tx.length)
    (hcmd : m.hdr.command = cmdNegotiate) (hneg : m.px.pc.negotiated = true)
    (hadm : admitted srv.env.crypto m.px.pc m.hdr m.msg (resolveChain m.hdr m.px.chain) = true) :
    ¬ m.answered srv := by
  unfold Member.answered
  rw [hstart]
  have hout := dispatch_dispatched srv m.hdr m.msg m.px
  generalize dispatch srv m.hdr m.msg m.px = out at hout ⊢
  cases hout with
  | replayed | foreign => exact lt_irrefl _
  | refused ha => exact absurd hadm (by simp [ha])
  | routed =>
    simp only [route, negotiate, hcmd, hneg, if_true]
    exact lt_irrefl _

section

variable {srv} {sh : Shared σ} {c : Conn} {bytes : Bytes}
  (h : ∀ m ∈ frameMembers srv sh c.proto bytes c.tx, m.Orderly srv c.proto.negotiated)

include h

section

variable {m : Member σ} (hm : m ∈ frameMembers srv sh c.proto bytes c.tx)
include hm

theorem orderly_label
    {k : Core} {l : Label} (hl : m.moveLabel srv k l) : Phase c.proto.negotiated l := by
  cases l with
  | setup s => exact (h m hm).1 hl.2.1
  | chainNeg => exact hl.2.elim
  | _ => trivial

/-- Up to the dispatch of a member, and in it, an orderly frame stays in its phase. -/
theorem orderly_moves :
    Moves srv (fun l _ => Phase c.proto.negotiated l) (c.core sh)
        (m.px.core c.watched (frameKey srv.env.crypto c.proto bytes)) ∧
      Moves srv (fun l _ => Phase c.proto.negotiated l) (c.core sh)
        ((dispatch srv m.hdr m.msg m.px).1.core c.watched
          (frameKey srv.env.crypto c.proto bytes)) := by
  have hbefore := @frameMembers_moves σ srv c.watched (fun l _ => Phase c.proto.negotiated l) sh
    c.proto bytes c.tx (fun _ => trivial) (fun m hm l hl => orderly_label h hm hl) m hm
  refine ⟨hbefore, hbefore.trans ?_⟩
  exact (dispatch_move srv m.hdr m.msg c.watched _ m.px).moves fun l hl => orderly_label h hm hl

end

theorem orderly_permits :
    Permits srv (fun l _ => Phase c.proto.negotiated l) sh c bytes where
  opens := fun _ => trivial
  members := fun m hm l hl => orderly_label h hm hl
  negotiate := by
    rintro ⟨m, hm, hans, hcmd⟩ k
    refine Bool.eq_false_iff.2 fun hneg => ?_
    obtain ⟨frame, base, w, hat⟩ := mem_frameMembers hm
    have hmoves := (orderly_moves h hm).1
    rw [hneg] at hmoves
    exact m.negotiate_unanswered srv (memberAt_found hat).respStart hcmd
      (hmoves.terms_kept hneg).1 ((h m hm).2 hcmd hneg) hans

end

theorem Event.Orderly.permitted {e : Event} (he : e.Orderly srv w) :
    e.Permitted srv (fun id l _ => Phase (w.settledAt id) l) w := by
  cases e with
  | frame id bytes =>
    intro c hc
    have hsettled : w.settledAt id = c.proto.negotiated := by
      rw [World.settledAt, World.taker_lookup hc]
      rfl
    dsimp only
    rw [hsettled]
    exact orderly_permits (he c hc)
  | _ => trivial

/-! ### Runs -/

/-- Every connection with a session has negotiated. -/
def World.Settled (w : World σ) : Prop :=
  ∀ id c, w.conns.lookup id = some c → HasSession c.proto.channels → c.proto.negotiated = true

/-- The terms of a connection that has negotiated stay what they are. -/
def ProtoConn.KeepsTerms (pc pc' : ProtoConn) : Prop :=
  pc.negotiated = true → pc'.negotiated = true ∧ pc'.terms = pc.terms

theorem Act.settled {w w' : World σ} {gone : ConnId → Prop}
    (h : Act srv (fun id l _ => Phase (w.settledAt id) l) gone w w') (hw : w.Settled)
    {id : ConnId} {c' : Conn} (hc' : w'.conns.lookup id = some c') :
    (HasSession c'.proto.channels → c'.proto.negotiated = true) ∧
      ∀ c, w.conns.lookup id = some c → c.proto.KeepsTerms c'.proto := by
  cases h.fate hc' with
  | new hnone hproto _ =>
    refine ⟨fun hsess => ?_, fun c hc => absurd (hc.symm.trans hnone) (by simp)⟩
    obtain ⟨sid, ch, hch, -⟩ := hsess
    exact absurd hch (by simp [hproto, ProtoConn.new])
  | same c hc hlife =>
    have hproto : c'.proto = c.proto := congrArg (fun l => l.2.1) hlife
    refine ⟨fun hsess => ?_, fun d hd => ?_⟩
    · exact hproto ▸ hw id c hc (hproto ▸ hsess)
    · obtain rfl := Option.some.inj (hc.symm.trans hd)
      rw [hproto]
      exact fun hneg => ⟨hneg, rfl⟩
  | moved c hc _ hserving =>
    have hmoves := hserving.mono fun _ _ h => h.1
    have hsettled : w.settledAt id = c.proto.negotiated := by
      rw [World.settledAt, hc]
      rfl
    rw [hsettled] at hmoves
    have hkeeps : c.proto.KeepsTerms c'.proto := by
      intro hneg
      rw [hneg] at hmoves
      exact hmoves.terms_kept hneg
    refine ⟨fun hsess => ?_, fun d hd => ?_⟩
    · cases hneg : c.proto.negotiated with
      | true => exact (hkeeps hneg).1
      | false =>
        rw [hneg] at hmoves
        have hnone : ¬ HasSession c.proto.channels := fun hs => by
          simpa [hneg] using hw id c hc hs
        exact absurd hsess (hmoves.no_session hnone)
    · obtain rfl := Option.some.inj (hc.symm.trans hd)
      exact hkeeps

theorem lenient_phase (w : World σ) (id : ConnId) :
    Lenient fun l (_ : Core) => Phase (w.settledAt id) l :=
  ⟨fun _ => trivial, fun _ => trivial, fun _ => trivial⟩

theorem World.step_settled {e : Event} (he : e.Orderly srv w) (hw : w.Settled) :
    (w.step srv e).Settled ∧ ∀ id c, w.conns.lookup id = some c → e ≠ .finalize id →
      ∃ c', (w.step srv e).conns.lookup id = some c' ∧ c.proto.KeepsTerms c'.proto := by
  rcases @World.step_act σ srv _ (fun id => e = .finalize id) (lenient_phase w) w e
    (Event.Orderly.permitted srv he) fun _ h => h with hsame | hact
  · rw [hsame]
    exact ⟨hw, fun id c hc _ => ⟨c, hc, fun h => ⟨h, rfl⟩⟩⟩
  · refine ⟨fun id c' hc' => (hact.settled srv hw hc').1, fun id c hc hne => ?_⟩
    obtain ⟨c', hc'⟩ := hact.lookup_isSome hc hne
    exact ⟨c', hc', (hact.settled srv hw hc').2 c hc⟩

theorem World.run_settled {es : List Event}
    (hes : w.Always srv (fun w e => e.Orderly srv w) es) (hw : w.Settled) :
    (w.run srv es).Settled ∧ ∀ id c, w.conns.lookup id = some c → .finalize id ∉ es →
      ∃ c', (w.run srv es).conns.lookup id = some c' ∧ c.proto.KeepsTerms c'.proto := by
  induction es generalizing w with
  | nil => exact ⟨hw, fun id c hc _ => ⟨c, hc, fun h => ⟨h, rfl⟩⟩⟩
  | cons e es ih =>
    obtain ⟨hstep, hkeeps⟩ := World.step_settled srv hes.1 hw
    obtain ⟨hrun, hkeeps'⟩ := ih hes.2 hstep
    refine ⟨hrun, fun id c hc hlive => ?_⟩
    obtain ⟨c₁, hc₁, h₁⟩ := hkeeps id c hc fun he => hlive (he ▸ List.mem_cons_self)
    obtain ⟨c₂, hc₂, h₂⟩ := hkeeps' id c₁ hc₁ fun he => hlive (List.mem_cons_of_mem e he)
    exact ⟨c₂, hc₂, fun hneg => ⟨(h₂ (h₁ hneg).1).1, (h₂ (h₁ hneg).1).2.trans (h₁ hneg).2⟩⟩

theorem World.Sees.settled {id : ConnId} {es : List Event} {pc : ProtoConn}
    (h : w.Sees srv id es pc) (hes : w.Always srv (fun w e => e.Orderly srv w) es)
    (hw : w.Settled) (hsess : HasSession pc.channels) :
    ∃ c, w.conns.lookup id = some c ∧ c.proto.negotiated = true ∧ pc.negotiated = true ∧
      pc.terms = c.proto.terms := by
  cases h with
  | now c es hc => exact ⟨c, hc, hw id c hc hsess, hw id c hc hsess, rfl⟩
  | within bytes es c m hc hm =>
    have hlookup := World.taker_lookup hc
    have hmoves := (orderly_moves (hes.1 c hc) hm).2
    cases hneg : c.proto.negotiated with
    | true =>
      rw [hneg] at hmoves
      obtain ⟨hneg', hterms⟩ := hmoves.terms_kept hneg
      exact ⟨c, hlookup, hneg, hneg', hterms⟩
    | false =>
      rw [hneg] at hmoves
      have hnone : ¬ HasSession c.proto.channels := fun hs => by
        simpa [hneg] using hw id c hlookup hs
      exact absurd hsess (hmoves.no_session hnone)

theorem World.settled_start (workers : ℕ) (os : σ) : (World.start workers os).Settled :=
  fun id c hc => absurd hc (by simp [World.start])

/-- **Negotiation is settled before sessions.**  In a run whose frames come in order, a connection
with an established channel has negotiated, and from then on its terms are the same for as long as
it lives: `pc` is its state after `es₁` or inside the next frame, and `es₂` any continuation. -/
theorem negotiation_settled (workers : ℕ) (os : σ) (es₁ es₂ : List Event) (id : ConnId)
    (pc : ProtoConn)
    (horder : (World.start workers os).Always srv (fun w e => e.Orderly srv w) (es₁ ++ es₂))
    (hpc : ((World.start workers os).run srv es₁).Sees srv id es₂ pc)
    (hsess : HasSession pc.channels) (hlive : .finalize id ∉ es₂) :
    pc.negotiated = true ∧ ∃ c,
      ((World.start workers os).run srv (es₁ ++ es₂)).conns.lookup id = some c ∧
        c.proto.terms = pc.terms := by
  obtain ⟨horder₁, horder₂⟩ := (World.always_append srv).1 horder
  have hsettled := (World.run_settled srv horder₁ (World.settled_start workers os)).1
  obtain ⟨c, hc, hneg, hneg', hterms⟩ := hpc.settled srv horder₂ hsettled hsess
  obtain ⟨c', hc', hkeeps⟩ := (World.run_settled srv horder₂ hsettled).2 id c hc hlive
  rw [World.run, List.foldl_append]
  exact ⟨hneg', c', hc', (hkeeps hneg).2.trans hterms.symm⟩

end

open Sample in
/-- A client that negotiates, logs in and then sends an ECHO. -/
theorem negotiation_settled_echo :
    ∃ pc ∈ protoAfter (srv false false) (logIn ++ [.frame conn (echoReq 0 0 2 2)]),
      HasSession pc.channels ∧ pc.negotiated = true ∧
        ∃ pc₁ ∈ protoAfter (srv false false) logIn, pc.terms = pc₁.terms := by
  obtain ⟨c, hc, hsess⟩ : ∃ c ∈ ((World.start 1 {}).run (srv false false) logIn).conns.lookup conn,
      HasSession c.proto.channels := by decide +kernel
  obtain ⟨hneg, c', hc', hterms⟩ := negotiation_settled (srv false false) 1 {} logIn
    [.frame conn (echoReq 0 0 2 2)] conn c.proto (by decide +kernel) (.now c _ hc) hsess (by decide)
  have hafter : protoAfter (srv false false) (logIn ++ [.frame conn (echoReq 0 0 2 2)]) =
      some c'.proto := by rw [protoAfter, hc']; rfl
  have hbefore : protoAfter (srv false false) logIn = some c.proto := by
    rw [protoAfter, hc]; rfl
  have hafter' : ∃ pc ∈ protoAfter (srv false false) (logIn ++ [.frame conn (echoReq 0 0 2 2)]),
      HasSession pc.channels ∧ pc.negotiated = true := by decide +kernel
  obtain ⟨pc, hpc, hsess', hneg'⟩ := hafter'
  obtain rfl := Option.some.inj (hafter.symm.trans hpc)
  exact ⟨c'.proto, hafter, hsess', hneg', c.proto, hbefore, hterms⟩

open Sample in
/-- A guest session without a NEGOTIATE, and a NEGOTIATE that changes the terms under it; a second
NEGOTIATE that is refused for its signature and changes the preauth hash all the same; and a
compound whose second request establishes a session before the end of the frame sets the hash. -/
theorem negotiation_unsettled :
    (∃ pc ∈ protoAfter (srv false false) [.accept conn, .frame conn (setupReq 0 0 0 [])],
      ∃ pc' ∈ protoAfter (srv false false)
        [.accept conn, .frame conn (setupReq 0 0 0 []), .frame conn (negotiateReq 0 0 1 0)],
      HasSession pc.channels ∧ pc.negotiated = false ∧ pc.dialect = 0 ∧ pc'.dialect = 0x0311 ∧
        pc'.cipher ≠ pc.cipher ∧ pc'.clientNeg ≠ pc.clientNeg) ∧
    (∃ pc ∈ protoAfter (srv false false) logIn,
      ∃ pc' ∈ protoAfter (srv false false)
        (logIn ++ [.frame conn (negotiateReq flagSigned 0 2 2)]),
      HasSession pc.channels ∧ pc.negotiated = true ∧ pc'.preauthNeg ≠ pc.preauthNeg) ∧
    let w := (World.start 1 {}).run (srv false false) [.accept conn]
    let bytes := negotiateReq 0 136 0 0 ++ zeros 4 ++ setupReq 0 1 0 krbBlob
    ∃ c ∈ w.taker conn bytes, ∃ m ∈ frameMembers (srv false false) w.shared c.proto bytes c.tx,
      ∃ pc' ∈ protoAfter (srv false false) [.accept conn, .frame conn bytes],
      HasSession (dispatch (srv false false) m.hdr m.msg m.px).1.pc.channels ∧
        pc'.preauthNeg ≠ (dispatch (srv false false) m.hdr m.msg m.px).1.pc.preauthNeg := by
  decide +kernel

end RocketSmbd
