import RocketSmbd.Authz
import RocketSmbd.Lease
import RocketSmbd.Vfs

/-!
# Sessions and the state shared by all connections (`session.rs`)

`SessionInner` is the shared state of one SMB session, `Shared` everything that connections on
different workers share: the session registry, the lease table, the mailboxes, and the state of
the world outside.  A registry entry is locked while a request uses it and requests are modelled
one at a time, so an entry is a plain value.
-/

namespace RocketSmbd

open ByteString Vfs

/-- A connected tree. -/
structure Tree where
  shareIdx : UInt32
  ipc : Bool
  readOnly : Bool
  deriving DecidableEq, Repr

/-- Shared state of one SMB session, reachable from every channel bound to it. -/
structure SessionInner where
  sessionKey : Bytes := zeros 16
  established : Bool := false
  guest : Bool := false
  signingRequired : Bool := false
  user : Str := []
  kerberos : Bool := false
  pac : Option LogonInfo := none
  trees : FinMap UInt32 Tree := ∅
  nextTreeId : UInt32 := 0
  handles : HandleTable := Slab.empty
  channels : ℕ := 0

/-- The registry: session id → session. -/
abbrev Registry := FinMap UInt64 SessionInner

/-- What the handlers of a session share with the rest of the server.  The last two fields are
history, written and never read: how many handles were opened, and the serial numbers of those
that went through `finishClose`. -/
structure Host (σ : Type) where
  leases : LeaseTable
  mailboxes : Mailboxes
  os : σ
  opened : ℕ
  finished : List ℕ

/-- Everything shared by all connections; `created` is the history of the session ids drawn. -/
structure Shared (σ : Type) where
  sessions : Registry
  host : Host σ
  created : List UInt64

namespace Host

variable {σ : Type}

/-- Run a system call. -/
def sys {E A : Type} (m : Eff σ E A) : Eff (Host σ) E A :=
  Eff.zoom Host.os (fun os h => { h with os }) m

/-- Apply a system call that cannot fail. -/
def act (f : σ → σ) (h : Host σ) : Host σ := { h with os := f h.os }

end Host

/-- Is `id` free for a new session? -/
def Registry.available (sessions : Registry) (id : UInt64) : Prop :=
  id ≠ 0 ∧ id ≠ 0xFFFFFFFFFFFFFFFF ∧ id ∉ sessions

instance (sessions : Registry) (id : UInt64) : Decidable (sessions.available id) :=
  inferInstanceAs (Decidable (_ ∧ _ ∧ _))

/-- How often the model draws before it gives up on the random source; each draw fails with
probability about `2 ^ -64` per registered session. -/
def maxDraws : ℕ := 64

variable {σ : Type}

/-- Draw random ids until one is available. -/
def Registry.draw (os : Os σ) (sessions : Registry) : ℕ → σ → Option UInt64 × σ
  | 0, s => (none, s)
  | fuel + 1, s =>
    let (b, s) := os.urandom 8 s
    let id := UInt64.ofNat (leNat b)
    if sessions.available id then (some id, s) else draw os sessions fuel s

/-- Allocate a fresh session and insert an empty (un-established) entry; `none` if the random
source gave no available id. -/
def Registry.create (os : Os σ) (sh : Shared σ) : Option UInt64 × Shared σ :=
  let (id, s) := Registry.draw os sh.sessions maxDraws sh.host.os
  let sh := { sh with host := { sh.host with os := s } }
  match id with
  | none => (none, sh)
  | some id =>
    (some id,
      { sh with sessions := sh.sessions.insert id {}, created := sh.created ++ [id] })

end RocketSmbd
