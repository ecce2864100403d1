import RocketSmbd.Smb2.Dispatch
import RocketSmbd.Smb2.Steps

/-!
# The life of a connection, as a transition system

`Core` is the part of the server that the statements about runs look at: the registry, the lease
side of the host, and of one connection the negotiated parameters, the channels, the pended
notifies and the history.  `Move` lists every way in which the server changes it, with what the
code has checked before; each move has a label for the statements that exclude some of them.

The theorems that the code makes no other moves are in the modules after this one
(`dispatch_move`, `processFrame_moves`, `step_moves`); an invariant of runs is then a statement
about `Move` alone.
-/

namespace RocketSmbd

open ByteString Vfs

variable {σ : Type}

/-- The host without the state outside. -/
def Host.erase (h : Host σ) : Host Unit := ⟨h.leases, h.mailboxes, (), h.opened, h.finished⟩

/-- What the statements about runs look at. -/
structure Core where
  sessions : Registry
  created : List UInt64
  host : Host Unit
  conn : ℕ × ℕ × UInt16
  dialect : UInt16
  cipher : UInt16
  negotiated : Bool
  clientNeg : Option ClientNeg
  preauthNeg : Bytes
  channels : FinMap UInt64 ChannelState
  /-- The notifies that wait for their completion, watched or about to be. -/
  pends : List NotifyPend
  hist : ConnHist
  /-- The session and the keys with which the sealed frame being processed was opened. -/
  key : Option (UInt64 × EncCtx)

/-- The core of a connection with the watches `watched`. -/
def Core.of (sh : Shared σ) (pc : ProtoConn) (watched : List NotifyPend)
    (key : Option (UInt64 × EncCtx)) : Core where
  sessions := sh.sessions
  created := sh.created
  host := sh.host.erase
  conn := (pc.wid, pc.connIdx, pc.connGen)
  dialect := pc.dialect
  cipher := pc.cipher
  negotiated := pc.negotiated
  clientNeg := pc.clientNeg
  preauthNeg := pc.preauthNeg
  channels := pc.channels
  pends := watched ++ pc.notify.new
  hist := pc.hist
  key := key

/-! ### The parts of a move -/

/-- The channel is in the middle of the setup of a session of its own. -/
def ChannelState.settingUp (ch : ChannelState) : Prop :=
  (∃ p, ch.pending = some p ∧ p.binding = false) ∨ ch.krbPending.isSome

/-- The history after a challenge was issued for a session. -/
def Core.issue (k : Core) (sid : UInt64) (p : PendingAuth) : ConnHist :=
  k.hist.logChallenge (.issued sid p.challenge)

/-- The history after the challenge of a session was taken. -/
def Core.take (k : Core) (sid : UInt64) (p : PendingAuth) : ConnHist :=
  k.hist.logChallenge (.taken sid p.challenge)

/-- The channel with which a setup starts, and the history after it: an NTLM challenge or a GSS
context is pending. -/
def Core.Opening (k : Core) (sid : UInt64) (ch : ChannelState) (hist : ConnHist) : Prop :=
  (∃ p preauth, p.binding = false ∧ ch = { pending := some p, preauth } ∧ hist = k.issue sid p) ∨
    ∃ ctx preauth, ch =
      { (k.channels.lookup sid).getD {} with krbPending := some ctx, preauth } ∧ hist = k.hist

/-- The history after the setup on channel `ch` came to its end: the challenge, if that is what
the channel was waiting with, is taken. -/
def Core.Ending (k : Core) (sid : UInt64) (ch : ChannelState) (hist : ConnHist) : Prop :=
  (∃ p, ch.pending = some p ∧ hist = k.take sid p) ∨ (ch.krbPending.isSome ∧ hist = k.hist)

/-- The history apart from the challenges. -/
def ConnHist.rest (hist : ConnHist) : List (Bytes × Bytes) × List (Bytes × ℕ) ×
    List (AsyncMeta × Bytes) :=
  (hist.setups, hist.seals, hist.finals)

section

variable {k : Core} {sid : UInt64} {ch : ChannelState} {hist : ConnHist}

theorem Core.Opening.rest (h : k.Opening sid ch hist) : hist.rest = k.hist.rest := by
  rcases h with ⟨_, _, _, _, rfl⟩ | ⟨_, _, _, rfl⟩
  · rfl
  · rfl

theorem Core.Ending.rest (h : k.Ending sid ch hist) : hist.rest = k.hist.rest := by
  rcases h with ⟨_, _, rfl⟩ | ⟨_, rfl⟩
  · rfl
  · rfl

end

/-- The channel `ch'` that a setup establishes out of `ch`, and the history after it: a user's,
with keys, or a guest's; `hist` is the history before the keys. -/
inductive Core.Keyed (srv : Srv σ) (k : Core) (hist : ConnHist) (ch : ChannelState) :
    ChannelState → ConnHist → Prop
  | user (required : Bool) (key : Bytes) (h : ¬ unsealable srv.cfg k.dialect k.cipher) :
    Keyed srv k hist ch
      (authenticated srv.cfg ch required
        (deriveSignCtx srv.env.crypto k.dialect key ch.preauth)
        (deriveEnc srv.env.crypto k.dialect k.cipher key ch.preauth))
      (hist.logSetup ch.preauth
        (deriveEnc srv.env.crypto k.dialect k.cipher key ch.preauth))
  | guest (h : srv.cfg.encrypt = false) :
    Keyed srv k hist ch { ch with established := true } hist

/-- The channels after a Kerberos exchange lost the session that its first leg created. -/
def Core.Lost (k : Core) (channels : FinMap UInt64 ChannelState) : Prop :=
  ∃ sid ch, k.channels.lookup sid = some ch ∧ ch.krbPending.isSome ∧ sid ∉ k.sessions ∧
    channels = k.channels.insert sid { ch with krbPending := none }

/-- One channel of session `sid` is gone: what becomes of the registry and the host. -/
inductive Dropped (sessions : Registry) (host : Host Unit) (sid : UInt64) :
    Registry → Host Unit → Prop
  | unknown (h : sessions.lookup sid = none) : Dropped sessions host sid sessions host
  | kept (s : SessionInner) (h : sessions.lookup sid = some s) (hc : s.channels - 1 ≠ 0) :
    Dropped sessions host sid (sessions.insert sid { s with channels := s.channels - 1 }) host
  | ended (s : SessionInner) (host' : Host Unit) (h : sessions.lookup sid = some s)
      (hc : s.channels - 1 = 0)
      (hclose : Host.Step (fun _ => False) (serialsOf s.handles) host host')
      (hfree : ∀ key g, host'.leases.HeldAt key g →
        host.leases.HeldAt key g ∧ ∀ of ∈ s.handles.live, ¬ of.Frees key g) :
    Dropped sessions host sid (sessions.erase sid) host'

/-- The connection of channel `ch` of session `sid` is gone: what becomes of the registry and the
host.  An established channel is dropped; an unfinished setup ends its session. -/
inductive Torn (sessions : Registry) (host : Host Unit) (sid : UInt64) (ch : ChannelState) :
    Registry → Host Unit → Prop
  | dropped (sessions' : Registry) (host' : Host Unit) (hest : ch.established = true)
      (h : Dropped sessions host sid sessions' host') : Torn sessions host sid ch sessions' host'
  | ended (s : SessionInner) (host' : Host Unit) (hch : ch.established = false)
      (h : sessions.lookup sid = some s) (hs : s.established = false)
      (hclose : Host.Step (fun _ => False) (serialsOf s.handles) host host') :
    Torn sessions host sid ch (sessions.erase sid) host'
  | kept (hch : ch.established = false)
      (h : ∀ s, sessions.lookup sid = some s → s.established = true) :
    Torn sessions host sid ch sessions host

/-- A request was served on session `sid` with channel `ch`: what it made of the session, the host
and the pended notifies.  A lease is granted only if `lease` allows it. -/
structure Core.Served (k : Core) (sid : UInt64) (ch : ChannelState) (lease : Bool)
    (s s' : SessionInner) (host : Host Unit) (pends : List NotifyPend) : Prop where
  identity : SameIdentity s s'
  serials : serialsOf s'.handles + host.finished + Multiset.range k.host.opened =
    serialsOf s.handles + k.host.finished + Multiset.range host.opened
  held : ∀ g, host.leases.Held g → k.host.leases.Held g ∨
    (lease = true ∧ (g.wid, g.connIdx, g.connGen) = k.conn ∧ g.sessionId = sid)
  queued : ∀ b, host.mailboxes.Queued b → k.host.mailboxes.Queued b ∨ ∃ g, (k.host.leases.Held g ∨
    (lease = true ∧ (g.wid, g.connIdx, g.connGen) = k.conn ∧ g.sessionId = sid)) ∧ b = g.break
  pends : ∀ p ∈ pends, p ∈ k.pends ∨
    ((∃ h, acceptedOn (some ch) h p) ∧ p.info.sessionId = sid)

/-- The completion of a pended notify on the channels of `k`, before it is sealed. -/
def Core.finalFrame (cr : Crypto) (k : Core) (p : NotifyPend) (st : UInt32)
    (events : List (UInt32 × Str)) : Bytes :=
  finalizeAsync cr k.channels p.info (notifyFinalMsg p.info st events p.outLen) 4

/-- The channel seals what it sends. -/
def ChannelState.sealsWith (ch : ChannelState) (e : EncCtx) : Prop :=
  ch.encrypt = true ∧ ch.enc = some e

/-- The next counter value of a key. -/
def EncCtx.next (e : EncCtx) : EncCtx := { e with nonceCtr := e.nonceCtr + 1 }

def ConnHist.logSeal (hist : ConnHist) (e : EncCtx) : ConnHist :=
  { hist with seals := hist.seals ++ [(e.s2c, e.nonceCtr)] }

def ConnHist.logFinal (hist : ConnHist) (info : AsyncMeta) (frame : Bytes) : ConnHist :=
  { hist with finals := hist.finals ++ [(info, frame)] }

/-! ### Moves -/

/-- What a move is about. -/
inductive Label
  | negotiate
  | setup (sid : UInt64)
  | logoff (sid : UInt64)
  | request (sid : UInt64) (lease : Bool)
  | preauth
  | chainNeg
  | decrypt (sid : UInt64)
  | encrypt
  | complete
  | teardown
  deriving DecidableEq

/-- Every change the server makes to the core of a connection. -/
inductive Move (srv : Srv σ) : Label → Core → Core → Prop
  | negotiate {k : Core} (dialect cipher : UInt16) (n : ClientNeg) (h : k.negotiated = false) :
    Move srv .negotiate k { k with dialect, cipher, negotiated := true, clientNeg := some n }
  /-- The first leg of a setup: a fresh session that is not established. -/
  | begin {k : Core} (sid : UInt64) (ch : ChannelState) (hist : ConnHist)
      (hfresh : sid ∉ k.sessions)
      (hfew : k.channels.count (fun _ c => ¬ c.established) < maxPendingSetups)
      (hch : k.Opening sid ch hist) :
    Move srv (.setup sid) k { k with
      sessions := k.sessions.insert sid {}
      created := k.created ++ [sid]
      channels := k.channels.insert sid ch, hist }
  /-- The first leg of a binding to an established session. -/
  | beginBind {k : Core} (sid : UInt64) (s : SessionInner) (p : PendingAuth) (preauth : Bytes)
      (hs : k.sessions.lookup sid = some s) (hest : s.established = true)
      (hch : ¬ (k.channels.lookup sid).any (·.established)) (hp : p.binding = true) :
    Move srv (.setup sid) k { k with
      channels := k.channels.insert sid { pending := some p, preauth }, hist := k.issue sid p }
  /-- A setup message joins the preauth hash of its channel. -/
  | extend {k : Core} (sid : UInt64) (ch : ChannelState) (preauth : Bytes)
      (hch : k.channels.lookup sid = some ch) :
    Move srv .preauth k { k with channels := k.channels.insert sid { ch with preauth } }
  /-- An AUTHENTICATE for a session that is gone. -/
  | spent {k : Core} (sid : UInt64) (ch : ChannelState) (p : PendingAuth) (preauth : Bytes)
      (hch : k.channels.lookup sid = some ch) (hp : ch.pending = some p)
      (hs : sid ∉ k.sessions) :
    Move srv (.setup sid) k { k with
      channels := k.channels.insert sid { ch with pending := none, preauth }
      hist := k.take sid p }
  | lost {k : Core} (sid : UInt64) (channels : FinMap UInt64 ChannelState) (h : k.Lost channels) :
    Move srv (.setup sid) k { k with channels }
  /-- A further leg of a Kerberos exchange. -/
  | further {k : Core} (sid : UInt64) (ch : ChannelState) (ctx : ℕ) (preauth : Bytes)
      (hch : k.channels.lookup sid = some ch) (hkrb : ch.krbPending.isSome) :
    Move srv (.setup sid) k { k with
      channels := k.channels.insert sid { ch with krbPending := some ctx, preauth } }
  /-- A setup failed: its channel and its session go. -/
  | abandon {k : Core} (sid : UInt64) (ch : ChannelState) (hist : ConnHist)
      (hch : k.channels.lookup sid = some ch) (hset : ch.settingUp)
      (hend : k.Ending sid ch hist) :
    Move srv (.setup sid) k { k with
      channels := k.channels.erase sid, sessions := k.sessions.erase sid, hist }
  /-- A binding failed: its channel goes. -/
  | unbind {k : Core} (sid : UInt64) (ch : ChannelState) (p : PendingAuth)
      (hch : k.channels.lookup sid = some ch) (hp : ch.pending = some p) (hb : p.binding = true) :
    Move srv (.setup sid) k { k with
      channels := k.channels.erase sid, hist := k.take sid p }
  /-- A setup is complete. -/
  | establish {k : Core} (sid : UInt64) (ch ch₀ ch' : ChannelState) (s s' : SessionInner)
      (preauth : Bytes) (hist₀ hist : ConnHist) (hch : k.channels.lookup sid = some ch)
      (hset : ch.settingUp) (hs : k.sessions.lookup sid = some s) (hest : s'.established = true)
      (hone : s'.channels = 1) (hhandles : s'.handles = s.handles)
      (h₀ : (ch.pending.isSome ∧ ch₀ = { ch with pending := none, preauth }) ∨ ch₀ = { preauth })
      (hend : k.Ending sid ch hist₀) (hkey : k.Keyed srv hist₀ ch₀ ch' hist) :
    Move srv (.setup sid) k { k with
      sessions := k.sessions.insert sid s', channels := k.channels.insert sid ch', hist }
  /-- A setup that is complete with its first message. -/
  | establishNew {k : Core} (sid : UInt64) (ch' : ChannelState) (s' : SessionInner)
      (preauth : Bytes) (hist : ConnHist) (channels : FinMap UInt64 ChannelState)
      (hfresh : sid ∉ k.sessions) (hchs : channels = k.channels ∨ k.Lost channels)
      (hest : s'.established = true) (hone : s'.channels = 1) (hhandles : s'.handles = Slab.empty)
      (hkey : k.Keyed srv k.hist { preauth } ch' hist) :
    Move srv (.setup sid) k { k with
      sessions := k.sessions.insert sid s', created := k.created ++ [sid]
      channels := channels.insert sid ch', hist }
  /-- A binding is complete. -/
  | bind {k : Core} (sid : UInt64) (ch ch' : ChannelState) (p : PendingAuth) (s : SessionInner)
      (preauth : Bytes) (hist : ConnHist) (hch : k.channels.lookup sid = some ch)
      (hp : ch.pending = some p) (hb : p.binding = true)
      (hs : k.sessions.lookup sid = some s) (hest : s.established = true)
      (hkey : k.Keyed srv (k.take sid p) { ch with pending := none, preauth } ch' hist) :
    Move srv (.setup sid) k { k with
      sessions := k.sessions.insert sid { s with channels := s.channels + 1 }
      channels := k.channels.insert sid ch', hist }
  | logoff {k : Core} (sid : UInt64) (ch : ChannelState) (sessions : Registry) (host : Host Unit)
      (hch : k.channels.lookup sid = some ch) (hest : ch.established = true)
      (hdrop : Dropped k.sessions k.host sid sessions host) :
    Move srv (.logoff sid) k { k with sessions, host, channels := k.channels.erase sid }
  | request {k : Core} (sid : UInt64) (ch : ChannelState) (lease : Bool) (s s' : SessionInner)
      (host : Host Unit) (pends : List NotifyPend) (hch : k.channels.lookup sid = some ch)
      (hest : ch.established = true) (hs : k.sessions.lookup sid = some s)
      (hserve : k.Served sid ch lease s s' host pends) :
    Move srv (.request sid lease) k { k with
      sessions := k.sessions.insert sid s', host, pends }
  /-- A NEGOTIATE exchange joins the preauth hash of the connection. -/
  | chainNeg {k : Core} (preauthNeg : Bytes) : Move srv .chainNeg k { k with preauthNeg }
  /-- A sealed frame decrypts; its session is encrypting from now on. -/
  | decrypt {k : Core} (sid : UInt64) (ch : ChannelState) (e : EncCtx)
      (hch : k.channels.lookup sid = some ch) (he : ch.enc = some e) (hkey : k.key = none) :
    Move srv (.decrypt sid) k { k with
      channels := k.channels.insert sid { ch with encrypt := true }, key := some (sid, e) }
  /-- A response is sealed with the keys of its channel. -/
  | sealHeld {k : Core} (sid : UInt64) (ch : ChannelState) (e : EncCtx)
      (hch : k.channels.lookup sid = some ch) (he : ch.enc = some e) :
    Move srv .encrypt k { k with
      channels := k.channels.insert sid { ch with enc := some e.next }
      hist := k.hist.logSeal e.next, key := none }
  /-- A response is sealed with the keys its request came with: the channel has none left. -/
  | sealGone {k : Core} (sid : UInt64) (e : EncCtx) (hkey : k.key = some (sid, e))
      (hch : (k.channels.lookup sid).bind ChannelState.enc = none) :
    Move srv .encrypt k { k with hist := k.hist.logSeal e.next, key := none }
  /-- A sealed frame without a response. -/
  | silent {k : Core} : Move srv .encrypt k { k with key := none }
  /-- A notify completes on a channel that does not seal. -/
  | completeOpen {k : Core} (p : NotifyPend) (st : UInt32) (events : List (UInt32 × Str))
      (hp : p ∈ k.pends) (hkey : k.key = none)
      (hopen : ∀ ch e, k.channels.lookup p.info.sessionId = some ch → ¬ ch.sealsWith e) :
    Move srv .complete k { k with
      hist := k.hist.logFinal p.info (k.finalFrame srv.env.crypto p st events) }
  /-- A notify completes on a channel that seals. -/
  | completeSealed {k : Core} (p : NotifyPend) (st : UInt32) (events : List (UInt32 × Str))
      (ch : ChannelState) (e : EncCtx) (hp : p ∈ k.pends) (hkey : k.key = none)
      (hch : k.channels.lookup p.info.sessionId = some ch) (hseal : ch.sealsWith e) :
    Move srv .complete k { k with
      channels := k.channels.insert p.info.sessionId { ch with enc := some e.next }
      hist := (k.hist.logSeal e.next).logFinal p.info (sealedFrame srv.env.crypto
        ((k.finalFrame srv.env.crypto p st events).drop 4) e.next e.next.nonceCtr
        p.info.sessionId) }
  /-- Pended notifies are reordered or done with. -/
  | forget {k : Core} (pends : List NotifyPend) (h : ∀ p ∈ pends, p ∈ k.pends) :
    Move srv .complete k { k with pends }
  /-- The connection is gone, and its channels go one by one. -/
  | teardown {k : Core} (sid : UInt64) (ch : ChannelState) (sessions : Registry)
      (host : Host Unit) (hch : k.channels.lookup sid = some ch)
      (htorn : Torn k.sessions k.host sid ch sessions host) :
    Move srv .teardown k { k with sessions, host, channels := k.channels.erase sid }

/-- Moves, each of which satisfies `ok` for its label and the core before it. -/
def Moves (srv : Srv σ) (ok : Label → Core → Prop) : Core → Core → Prop :=
  Relation.ReflTransGen fun k k' => ∃ l, ok l k ∧ Move srv l k k'

namespace Moves

variable {srv : Srv σ} {ok : Label → Core → Prop} {k k' : Core}

theorem refl (k : Core) : Moves srv ok k k := Relation.ReflTransGen.refl

theorem single {l : Label} (hok : ok l k) (h : Move srv l k k') : Moves srv ok k k' :=
  Relation.ReflTransGen.single ⟨l, hok, h⟩

theorem trans {k'' : Core} (h₁ : Moves srv ok k k') (h₂ : Moves srv ok k' k'') :
    Moves srv ok k k'' := Relation.ReflTransGen.trans h₁ h₂

/-- What every permitted move keeps, a sequence of them keeps. -/
theorem induct {P : Core → Prop} (hP : ∀ l a b, ok l a → Move srv l a b → P a → P b)
    (h : Moves srv ok k k') (hk : P k) : P k' := by
  induction h with
  | refl => exact hk
  | tail _ hmove ih =>
    obtain ⟨l, hok, hm⟩ := hmove
    exact hP l _ _ hok hm ih

theorem mono {ok' : Label → Core → Prop} (h : Moves srv ok k k')
    (hok : ∀ l a, ok l a → ok' l a) : Moves srv ok' k k' :=
  Relation.ReflTransGen.mono (fun a _ ⟨l, ho, hm⟩ => ⟨l, hok l a ho, hm⟩) _ _ h

end Moves

end RocketSmbd
