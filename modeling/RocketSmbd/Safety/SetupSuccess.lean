import RocketSmbd.Life.Frame
import RocketSmbd.Sample
import RocketSmbd.Smb2.Fields

/-!
# What a successful SESSION_SETUP means

A SESSION_SETUP that is answered with SUCCESS should leave the client with a session that it can
use: an established channel of its connection, and a session that is registered and established.

* `Px.Honest`: an answer with SUCCESS is followed by a usable session.
* `setup_success_iff`: when the answer to a SESSION_SETUP is honest.
-/

namespace RocketSmbd

open ByteString Vfs

variable {σ : Type}

/-- If the answer to the request is a SUCCESS, its session is usable. -/
def Px.Honest (px px' : Px σ) : Prop :=
  ∀ resp, px'.tx = px.tx ++ resp → resp ≠ [] → respStatus resp = Status.success →
    px'.Usable (respSession resp)

section

variable {px px₁ : Px σ}

section

variable (htx : px₁.tx = px.tx)
include htx

theorem honest_err (h : ReqHdr) {st : UInt32} (hst : st ≠ Status.success) :
    px.Honest (px₁.err h st) := by
  intro resp hresp _ hok
  rw [← htx] at hresp
  exact absurd ((Px.status_err hresp).symm.trans hok) hst

theorem honest_ss (h : ReqHdr) {st : UInt32} {sid : UInt64} (flags : UInt16)
    (blob : Bytes) (hst : st = Status.success → px₁.Usable sid) :
    px.Honest (px₁.ss h st sid flags blob) := by
  intro resp hresp _ hok
  have htx' : (px₁.ss h st sid flags blob).tx = px.tx ++
      (respHdr h st px₁.chain.related 0 sid ++
        (p16 9 ++ p16 flags ++ p16 72 ++ p16 (UInt16.ofNat blob.length) ++ blob)) := by
    rw [← htx]
    simp only [Px.ss, ssResp, beginResp, List.append_assoc]
  obtain rfl := List.append_cancel_left (htx'.symm.trans hresp)
  rw [respStatus_respHdr] at hok
  rw [respSession_respHdr]
  exact hst hok

theorem honest_disconnect : px.Honest px₁.disconnect := by
  intro resp hresp hne
  have hnil : px.tx ++ resp = px.tx ++ [] := by
    rw [List.append_nil, ← hresp]
    exact htx
  exact absurd (List.append_cancel_left hnil) hne

/-- An answer with SUCCESS is honest only if its session is usable. -/
theorem honest_ss_iff (h : ReqHdr) {sid : UInt64} (flags : UInt16)
    (blob : Bytes) : px.Honest (px₁.ss h Status.success sid flags blob) ↔ px₁.Usable sid := by
  refine ⟨fun hon => ?_, fun hu => honest_ss htx h flags blob fun _ => hu⟩
  have hresp : (px₁.ss h Status.success sid flags blob).tx = px.tx ++
      (respHdr h Status.success px₁.chain.related 0 sid ++
        (p16 9 ++ p16 flags ++ p16 72 ++ p16 (UInt16.ofNat blob.length) ++ blob)) := by
    rw [← htx]
    simp only [Px.ss, ssResp, beginResp, List.append_assoc]
  have husable := hon _ hresp
    (List.append_ne_nil_of_left_ne_nil (List.ne_nil_of_length_pos (by simp)) _)
    (respStatus_respHdr ..)
  rw [respSession_respHdr] at husable
  exact husable

end

end

section

variable (srv : Srv σ) (h : ReqHdr) (msg : Bytes) (px : Px σ)

/-- A re-authentication is acknowledged, whatever there is of its session. -/
theorem sessionSetup_acknowledges (hack : Acknowledges srv h msg px.pc) :
    ∃ (px₁ : Px σ) (flags : UInt16),
      sessionSetup srv h msg px = px₁.ss h Status.success h.sessionId flags [] ∧ px₁.tx = px.tx ∧
      (px₁.Usable h.sessionId ↔ px.Usable h.sessionId) := by
  obtain ⟨⟨blob, hblob, hmech⟩, hon, ⟨r, hr, hclass⟩, ch, hch, hp⟩ := hack
  have hntlm : sessionSetup srv h msg px = ntlmAuthenticate srv h msg r px := by
    unfold sessionSetup ntlmSessionSetup
    rw [hblob, hr]
    dsimp only
    rw [hclass, if_pos hon]
    cases hm : setupMech srv px.pc h blob with
    | krb5 => exact absurd hm hmech
    | ntlmssp => rfl
    | unknown => rfl
  have hch' : (px.onSession h.sessionId).pc.channels.lookup h.sessionId = some ch := hch
  rw [hntlm]
  unfold ntlmAuthenticate
  dsimp only
  rw [hch']
  dsimp only
  rw [hp]
  refine ⟨_, _, rfl, rfl, ?_⟩
  constructor
  · rintro ⟨⟨ch', hsome, hest⟩, hs⟩
    obtain rfl := Option.some.inj ((AList.lookup_insert _).symm.trans hsome)
    exact ⟨⟨ch, hch, hest⟩, hs⟩
  · rintro ⟨⟨ch', hsome, hest⟩, hs⟩
    obtain rfl := Option.some.inj (hch.symm.trans hsome)
    exact ⟨⟨_, AList.lookup_insert _, hest⟩, hs⟩

theorem sessionSetup_honest_iff :
    px.Honest (sessionSetup srv h msg px) ↔
      (Acknowledges srv h msg px.pc → px.Usable h.sessionId) := by
  by_cases hack : Acknowledges srv h msg px.pc
  · obtain ⟨px₁, flags, heq, htx, husable⟩ := sessionSetup_acknowledges srv h msg px hack
    rw [heq, honest_ss_iff htx, husable]
    exact ⟨fun hu _ => hu, fun hu => hu hack⟩
  · refine iff_of_true ?_ fun h => absurd h hack
    have hout := sessionSetup_outcome srv h msg px
    generalize sessionSetup srv h msg px = px' at hout ⊢
    cases hout with
    | refused hq hst => exact honest_err hq.tx h hst
    | answered hq _ husable =>
      exact honest_ss hq.tx h _ _ fun hst => (husable hst).resolve_right hack
    | dropped hq => exact honest_disconnect hq.tx

/-- **What SUCCESS means.**  A SESSION_SETUP that is answered with SUCCESS leaves its connection
with an established channel of the session in the answer, which is registered and established, if
and only if an AUTHENTICATE that is taken for a re-authentication finds them so. -/
theorem setup_success_iff (hcmd : h.command = cmdSessionSetup) :
    px.Honest (dispatch srv h msg px).1 ↔
      (px.Reaches srv.env.crypto h msg → Acknowledges srv h msg px.pc → px.Usable h.sessionId) := by
  have hdispatch := dispatch_dispatched srv h msg px
  generalize hout : dispatch srv h msg px = out at hdispatch
  by_cases hr : px.Reaches srv.env.crypto h msg
  · rw [← hout, dispatch_reaches hr, @route_setup σ srv (h.paid px) msg _ hcmd]
    refine Iff.trans ?_ ⟨fun hu _ => hu, fun hu => hu hr⟩
    exact sessionSetup_honest_iff srv (h.paid px) msg (px.ready h)
  · refine iff_of_true ?_ fun hreaches => absurd hreaches hr
    cases hdispatch with
    | replayed | foreign => exact honest_disconnect rfl
    | refused => exact honest_err rfl _ (by decide)
    | routed hreaches => exact absurd hreaches hr

end

open Sample in
/-- A login with Kerberos on a fresh connection succeeds, and its session is usable. -/
theorem setup_success_logIn :
    ∃ c ∈ ((World.start 1 {}).run (srv false false)
        [.accept conn, .frame conn (negotiateReq 0 0 0 0)]).conns.lookup conn,
      ∃ m ∈ frameMembers (srv false false) ((World.start 1 {}).run (srv false false)
          [.accept conn, .frame conn (negotiateReq 0 0 0 0)]).shared c.proto
          (setupReq 0 1 0 krbBlob) c.tx,
        respStatus ((dispatch (srv false false) m.hdr m.msg m.px).1.tx.drop m.px.tx.length) =
            Status.success ∧
          m.px.Honest (dispatch (srv false false) m.hdr m.msg m.px).1 := by
  obtain ⟨c, hc, m, hm, hcmd, hch, hst⟩ : ∃ c ∈ ((World.start 1 {}).run (srv false false)
        [.accept conn, .frame conn (negotiateReq 0 0 0 0)]).conns.lookup conn,
      ∃ m ∈ frameMembers (srv false false) ((World.start 1 {}).run (srv false false)
          [.accept conn, .frame conn (negotiateReq 0 0 0 0)]).shared c.proto
          (setupReq 0 1 0 krbBlob) c.tx,
        m.hdr.command = cmdSessionSetup ∧ m.px.pc.channels.lookup m.hdr.sessionId = none ∧
          respStatus ((dispatch (srv false false) m.hdr m.msg m.px).1.tx.drop m.px.tx.length) =
            Status.success := by
    decide +kernel
  refine ⟨c, hc, m, hm, hst, (setup_success_iff (srv false false) m.hdr m.msg m.px hcmd).2 ?_⟩
  rintro - ⟨-, -, -, ch, hsome, -⟩
  exact nomatch hch.symm.trans hsome

/-! ### A session that is gone -/

namespace Sample

/-- A second connection. -/
def other : ConnId := (0, 1)

/-- A SESSION_SETUP that binds a channel. -/
def bindReq (mid sid : UInt64) (blob : Bytes) : Bytes :=
  request cmdSessionSetup 0 0 mid 0 sid
    (p16 25 ++ p8 sessionFlagBinding ++ p8 0 ++ p32 0 ++ p32 0 ++ p16 88 ++
      p16 (UInt16.ofNat blob.length) ++ p64 0 ++ blob)

/-- A second connection asks for a channel of session 2, which logs off, and then answers the
challenge. -/
def lateBinding : List Event :=
  logIn ++ [.accept other, .frame other (negotiateReq 0 0 0 0),
    .frame other (bindReq 1 2 ntlmHello), .frame conn (logoffReq 0 0 2 2),
    .frame other (bindReq 2 2 (ntlmAnswer (leBytes 8 4)))]

end Sample

open Sample in
/-- The answer to the challenge fails, since the session is gone, and a second one succeeds. -/
theorem setup_success_deleted :
    ∃ c ∈ ((World.start 1 {}).run (srv false false) lateBinding).conns.lookup other,
      ∃ m ∈ frameMembers (srv false false) ((World.start 1 {}).run (srv false false)
          lateBinding).shared c.proto (bindReq 3 2 (ntlmAnswer (leBytes 8 4))) c.tx,
        m.hdr.command = cmdSessionSetup ∧
          (let px' := (dispatch (srv false false) m.hdr m.msg m.px).1
           respStatus (px'.tx.drop m.px.tx.length) = Status.success ∧
            px'.shared.sessions.lookup 2 = none) := by
  decide +kernel

end RocketSmbd
