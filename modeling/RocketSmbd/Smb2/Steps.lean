import RocketSmbd.Smb2.Effects

/-!
# What a request does to session, host and notify queue

`Sx.Step add s s'` says what the statements about runs need to know of a request: the session keeps
its identity, every handle that leaves the table goes through `finishClose`, and leases, breaks and
pended notifies only grow by what `add` allows.  `Sx.Acts.step` derives it from the effects of the
handler.
-/

namespace RocketSmbd

open ByteString Vfs

variable {σ : Type}

/-- The leases and pended notifies that a request may add. -/
structure Adds where
  grant : LeaseGrant → Prop
  pend : NotifyPend → Prop

/-- A request that adds neither. -/
def Adds.none : Adds := ⟨fun _ => False, fun _ => False⟩

/-- The two states of a session agree on everything but trees and handles. -/
structure SameIdentity (a b : SessionInner) : Prop where
  sessionKey : b.sessionKey = a.sessionKey
  established : b.established = a.established
  guest : b.guest = a.guest
  signingRequired : b.signingRequired = a.signingRequired
  user : b.user = a.user
  channels : b.channels = a.channels

theorem SameIdentity.refl (a : SessionInner) : SameIdentity a a := ⟨rfl, rfl, rfl, rfl, rfl, rfl⟩

theorem SameIdentity.trans {a b c : SessionInner} (h₁ : SameIdentity a b) (h₂ : SameIdentity b c) :
    SameIdentity a c where
  sessionKey := h₂.sessionKey.trans h₁.sessionKey
  established := h₂.established.trans h₁.established
  guest := h₂.guest.trans h₁.guest
  signingRequired := h₂.signingRequired.trans h₁.signingRequired
  user := h₂.user.trans h₁.user
  channels := h₂.channels.trans h₁.channels

/-- The serial numbers of a table's open handles. -/
def serialsOf (t : HandleTable) : Multiset ℕ := t.live.map OpenFile.serial

/-! ### The host -/

/-- What a handler can do to the host without opening a handle: `gone` went through
`finishClose`. -/
structure Host.Step (grant : LeaseGrant → Prop) (gone : Multiset ℕ) (h h' : Host σ) : Prop where
  opened : h'.opened = h.opened
  finished : (h'.finished : Multiset ℕ) = h.finished + gone
  held : ∀ g, h'.leases.Held g → h.leases.Held g ∨ grant g
  queued : ∀ b, h'.mailboxes.Queued b →
    h.mailboxes.Queued b ∨ ∃ g, (h.leases.Held g ∨ grant g) ∧ b = g.break

namespace Host.Step

variable {grant : LeaseGrant → Prop} {m n : Multiset ℕ} {a b c : Host σ}

theorem refl (a : Host σ) : Host.Step grant 0 a a :=
  ⟨rfl, (add_zero _).symm, fun _ h => Or.inl h, fun _ h => Or.inl h⟩

theorem trans (h₁ : Host.Step grant m a b) (h₂ : Host.Step grant n b c) :
    Host.Step grant (m + n) a c where
  opened := h₂.opened.trans h₁.opened
  finished := by rw [h₂.finished, h₁.finished, add_assoc]
  held := fun g hg => (h₂.held g hg).elim (h₁.held g) Or.inr
  queued := by
    intro x hx
    rcases h₂.queued x hx with hx | ⟨g, hg, rfl⟩
    · exact h₁.queued x hx
    · exact Or.inr ⟨g, hg.elim (h₁.held g) Or.inr, rfl⟩

/-- Only the state outside changed. -/
theorem os (a : Host σ) (s : σ) : Host.Step grant 0 a { a with os := s } :=
  ⟨rfl, (add_zero _).symm, fun _ h => Or.inl h, fun _ h => Or.inl h⟩

end Host.Step

section

variable (grant : LeaseGrant → Prop)

theorem breakLeases_step (key : LeaseFile) (except : Option Bytes)
    (h : Host σ) : Host.Step grant 0 h (breakLeases key except h) where
  opened := rfl
  finished := (add_zero _).symm
  held := fun _ hg => Or.inl (LeaseTable.held_breakConflicts hg)
  queued := by
    intro b hb
    rcases Mailboxes.queued_foldl_post hb with hb | hb
    · exact Or.inl hb
    · obtain ⟨g, hg, rfl⟩ := LeaseTable.mem_breakConflicts hb
      exact Or.inr ⟨g, Or.inl hg, rfl⟩

theorem releaseLease_step (of : OpenFile) (h : Host σ) :
    Host.Step grant 0 h (releaseLease of h) := by
  unfold releaseLease
  split
  · split_ifs
    · exact ⟨rfl, (add_zero _).symm, fun _ hg => Or.inl (LeaseTable.held_release hg),
        fun _ hb => Or.inl hb⟩
    · exact .refl h
  · exact .refl h

section

variable (os : Os σ) (of : OpenFile) (h : Host σ)

theorem breakDeleted_step :
    Host.Step grant 0 h (breakDeleted os of h) := by
  unfold breakDeleted
  split_ifs
  · exact .refl h
  · split
    · exact (Host.Step.os h _).trans (breakLeases_step grant _ _ _)
    · exact .os h _

theorem finishClose_step :
    Host.Step grant {of.serial} h (finishClose os of h).2 := by
  have hrel := releaseLease_step grant of h
  have hfin : Host.Step grant {of.serial} h
      { releaseLease of h with finished := h.finished ++ [of.serial] } :=
    ⟨hrel.opened, by rw [← Multiset.coe_add]; rfl, hrel.held, hrel.queued⟩
  have hbreak := hfin.trans (breakDeleted_step grant os of _)
  rw [add_zero] at hbreak
  unfold finishClose
  dsimp only
  split
  · exact hfin
  · split
    · exact ⟨hbreak.opened, hbreak.finished, hbreak.held, hbreak.queued⟩
    · exact ⟨hbreak.opened, hbreak.finished, hbreak.held, hbreak.queued⟩

theorem closeFile_step :
    Host.Step grant {of.serial} h (closeFile os of h) := by
  have hfin := finishClose_step grant os of h
  exact ⟨hfin.opened, hfin.finished, hfin.held, hfin.queued⟩

end

/-- Closing every handle of a table finishes all of them. -/
theorem closeFiles_step (os : Os σ) (files : List OpenFile)
    (h : Host σ) : Host.Step grant (files.map OpenFile.serial : List ℕ) h
      (files.foldl (fun host of => closeFile os of host) h) := by
  induction files generalizing h with
  | nil => exact .refl h
  | cons of files ih => exact (closeFile_step grant os of h).trans (ih (closeFile os of h))

end

/-! ### Leases that a close releases -/

/-- The close of the handle releases the grant `g` on file `key`. -/
def Vfs.OpenFile.Frees (of : OpenFile) (key : LeaseFile) (g : LeaseGrant) : Prop :=
  of.oplockIno = some key.2 ∧ of.shareIdx = key.1 ∧ of.leaseKey = some g.leaseKey ∧
    of.leaseGranted &&& leaseHandleCaching = 0

instance (of : OpenFile) (key : LeaseFile) (g : LeaseGrant) : Decidable (of.Frees key g) :=
  inferInstanceAs (Decidable (_ ∧ _ ∧ _ ∧ _))

theorem releaseLease_frees {of : OpenFile} {host : Host σ} {key : LeaseFile} {g : LeaseGrant}
    (h : (releaseLease of host).leases.HeldAt key g) :
    host.leases.HeldAt key g ∧ ¬ of.Frees key g := by
  unfold releaseLease at h
  split at h
  · next ino lk hino hlk =>
    split_ifs at h with hcache
    · obtain ⟨hheld, hkey⟩ := LeaseTable.heldAt_release h
      refine ⟨hheld, ?_⟩
      rintro ⟨hino', hshare, hlk', -⟩
      obtain rfl := Option.some.inj (hino.symm.trans hino')
      obtain rfl := Option.some.inj (hlk.symm.trans hlk')
      exact hkey (by rw [hshare]) rfl
    · exact ⟨h, fun hf => hcache hf.2.2.2⟩
  · next hnone => exact ⟨h, fun hf => hnone _ _ hf.1 hf.2.2.1⟩

theorem breakDeleted_heldAt (os : Os σ) (of : OpenFile) (host : Host σ) {key : LeaseFile}
    {g : LeaseGrant} (h : (breakDeleted os of host).leases.HeldAt key g) :
    host.leases.HeldAt key g := by
  unfold breakDeleted at h
  split_ifs at h
  · exact h
  · split at h
    · exact LeaseTable.heldAt_breakConflicts h
    · exact h

theorem closeFile_frees {os : Os σ} {of : OpenFile} {host : Host σ} {key : LeaseFile}
    {g : LeaseGrant} (h : (closeFile os of host).leases.HeldAt key g) :
    host.leases.HeldAt key g ∧ ¬ of.Frees key g := by
  have hclose : (releaseLease of host).leases.HeldAt key g := by
    have hdelete := @breakDeleted_heldAt σ os of
      { releaseLease of host with finished := host.finished ++ [of.serial] } key g
    unfold closeFile dropFile finishClose at h
    dsimp only at h
    split at h
    · exact h
    · split at h
      · exact hdelete h
      · exact hdelete h
  exact releaseLease_frees hclose

/-- Closing handles leaves no grant that one of them frees, and adds none. -/
theorem closeFiles_frees {os : Os σ} {files : List OpenFile} {host : Host σ} {key : LeaseFile}
    {g : LeaseGrant}
    (h : (files.foldl (fun host of => closeFile os of host) host).leases.HeldAt key g) :
    host.leases.HeldAt key g ∧ ∀ of ∈ files, ¬ of.Frees key g := by
  induction files generalizing host with
  | nil => exact ⟨h, fun of hof => absurd hof List.not_mem_nil⟩
  | cons of files ih =>
    obtain ⟨hheld, hrest⟩ := ih h
    obtain ⟨hheld, hof⟩ := closeFile_frees hheld
    exact ⟨hheld, List.forall_mem_cons.2 ⟨hof, hrest⟩⟩

/-! ### The session -/

/-- What a handler can do. -/
structure Sx.Step (add : Adds) (s s' : Sx σ) : Prop where
  identity : SameIdentity s.sess s'.sess
  session : s'.chain.sessionId = s.chain.sessionId
  transform : s'.chain.transformSid = s.chain.transformSid
  serials : serialsOf s'.sess.handles + s'.host.finished + Multiset.range s.host.opened =
    serialsOf s.sess.handles + s.host.finished + Multiset.range s'.host.opened
  held : ∀ g, s'.host.leases.Held g →
    s.host.leases.Held g ∨ (add.grant g ∧ g.sessionId = s.chain.sessionId)
  queued : ∀ b, s'.host.mailboxes.Queued b → s.host.mailboxes.Queued b ∨
    ∃ g, (s.host.leases.Held g ∨ (add.grant g ∧ g.sessionId = s.chain.sessionId)) ∧ b = g.break
  pends : ∀ p ∈ s'.notify.new, p ∈ s.notify.new ∨
    (add.pend p ∧ p.info.sessionId = s.chain.sessionId)

namespace Sx.Step

variable {add : Adds} {a b c : Sx σ}

theorem refl (add : Adds) (a : Sx σ) : Sx.Step add a a where
  identity := .refl _
  session := rfl
  transform := rfl
  serials := rfl
  held := fun _ h => Or.inl h
  queued := fun _ h => Or.inl h
  pends := fun _ h => Or.inl h

theorem trans (h₁ : Sx.Step add a b) (h₂ : Sx.Step add b c) : Sx.Step add a c where
  identity := h₁.identity.trans h₂.identity
  session := h₂.session.trans h₁.session
  transform := h₂.transform.trans h₁.transform
  serials := by
    -- both equations added up, and the numbers in between cancelled
    have h := congrArg₂ (· + ·) h₁.serials h₂.serials
    refine add_left_cancel (a := serialsOf b.sess.handles + b.host.finished +
      Multiset.range b.host.opened) ?_
    calc _ = serialsOf b.sess.handles + b.host.finished + Multiset.range a.host.opened +
          (serialsOf c.sess.handles + c.host.finished + Multiset.range b.host.opened) := by abel
      _ = _ := h
      _ = _ := by abel
  held := by
    intro g hg
    rcases h₂.held g hg with hg | hg
    · exact h₁.held g hg
    · exact Or.inr (h₁.session ▸ hg)
  queued := by
    intro x hx
    rcases h₂.queued x hx with hx | ⟨g, hg | hg, rfl⟩
    · exact h₁.queued x hx
    · exact Or.inr ⟨g, h₁.held g hg, rfl⟩
    · exact Or.inr ⟨g, Or.inr (h₁.session ▸ hg), rfl⟩
  pends := by
    intro x hx
    rcases h₂.pends x hx with hx | hx
    · exact h₁.pends x hx
    · exact Or.inr (h₁.session ▸ hx)

instance (add : Adds) : Std.Refl (@Sx.Step σ add) := ⟨refl add⟩

instance (add : Adds) : IsTrans (Sx σ) (Sx.Step add) := ⟨fun _ _ _ => trans⟩

/-- Only the host changed. -/
theorem onHost {h : Host σ} (hs : Host.Step (fun _ => False) 0 a.host h) :
    Sx.Step add a { a with host := h } where
  identity := .refl _
  session := rfl
  transform := rfl
  serials := by
    dsimp only
    rw [hs.finished, hs.opened, add_zero]
  held := fun g hg => (hs.held g hg).imp_right False.elim
  queued := fun b hb => (hs.queued b hb).imp_right fun ⟨g, hg, hb⟩ =>
    ⟨g, hg.imp_right False.elim, hb⟩
  pends := fun _ hp => Or.inl hp

/-- Session fields, handles with the same serial numbers, the notify queue without new pends, and
the chain's tree and last handle changed. -/
theorem inSession {s' : Sx σ} (hid : SameIdentity a.sess s'.sess)
    (hsid : s'.chain.sessionId = a.chain.sessionId)
    (htr : s'.chain.transformSid = a.chain.transformSid) (hhost : s'.host = a.host)
    (hser : serialsOf s'.sess.handles = serialsOf a.sess.handles)
    (hnew : s'.notify.new = a.notify.new) : Sx.Step add a s' where
  identity := hid
  session := hsid
  transform := htr
  serials := by rw [hhost, hser]
  held := fun g hg => Or.inl (hhost ▸ hg)
  queued := fun b hb => Or.inl (hhost ▸ hb)
  pends := fun p hp => Or.inl (hnew ▸ hp)

end Sx.Step

/-! ### Effects are steps -/

/-- The pend is one that the channel `ch` gets for the request `h`. -/
def acceptedOn (ch : Option ChannelState) (h : ReqHdr) (p : NotifyPend) : Prop :=
  p.info.wantSign = wantSign ch h ∧ p.info.sealedUnder = ch.bind ChannelState.sealKey ∧
    (p.info.signedUnder = ch.bind fun c => if wantSign ch h ∧ ¬ c.encrypt then c.sign else none) ∧
    p.outLen ≤ maxTransact

/-- The effect adds no leases and notifies but those that `add` allows. -/
def Effect.within (add : Adds) : Effect → Prop
  | .insert _ granted _ cid =>
    granted.isSome → ∀ g : LeaseGrant, (g.wid, g.connIdx, g.connGen) = cid → add.grant g
  | .accept ch h _ _ => ∀ p, acceptedOn ch h p → add.pend p
  | _ => True

theorem Effect.within_all (e : Effect) : e.within ⟨fun _ => True, fun _ => True⟩ := by
  cases e <;> simp [Effect.within]

theorem Touch.apply_serial (t : Touch) (of : OpenFile) : (t.apply of).serial = of.serial := by
  cases t <;> rfl

section

variable (add : Adds)

/-- A handle leaves the table and goes through `finishClose`. -/
theorem close_step {os : Os σ} {s : Sx σ} {fid : UInt64} {treeId : UInt32} {of : OpenFile}
    {t : HandleTable} (h : s.sess.handles.remove fid treeId = some (of, t)) (o : σ)
    (q : NotifyQueues) (hq : q.new = s.notify.new) :
    Sx.Step add s { s with
      sess := { s.sess with handles := t }, notify := q
      host := (finishClose os of { s.host with os := o }).2 } where
  identity := ⟨rfl, rfl, rfl, rfl, rfl, rfl⟩
  session := rfl
  transform := rfl
  serials := by
    have hperm := (HandleTable.live_remove h).1.map OpenFile.serial
    have hser : ({of.serial} : Multiset ℕ) + serialsOf t = serialsOf s.sess.handles :=
      Multiset.coe_eq_coe.2 hperm
    have hfinish := finishClose_step (fun _ => False) os of { s.host with os := o }
    dsimp only
    rw [← hser, hfinish.finished, hfinish.opened]
    abel
  held := fun g hg =>
    ((finishClose_step (fun _ => False) os of _).held g hg).imp_right False.elim
  queued := fun b hb => ((finishClose_step (fun _ => False) os of _).queued b hb).imp_right
    fun ⟨g, hg, hb⟩ => ⟨g, hg.imp_right False.elim, hb⟩
  pends := fun _ hp => Or.inl (hq ▸ hp)

section

variable (of : OpenFile) (granted : Option LeaseReq) (ino : UInt64) (cid : ℕ × ℕ × UInt16)
  (s : Sx σ)

omit add in
theorem insertHandle_opened :
    (insertHandle of granted ino cid s).2.host.opened = s.host.opened + 1 := by
  cases granted <;> rfl

/-- A CREATE adds a handle, and a grant only if it was asked for and allowed. -/
theorem insertHandle_step
    (h : granted.isSome → ∀ g : LeaseGrant, (g.wid, g.connIdx, g.connGen) = cid → add.grant g) :
    Sx.Step add s (insertHandle of granted ino cid s).2 where
  identity := ⟨rfl, rfl, rfl, rfl, rfl, rfl⟩
  session := rfl
  transform := rfl
  serials := by
    have hperm := (HandleTable.live_insert s.sess.handles
      { of with treeId := s.chain.treeId, serial := s.host.opened }).map OpenFile.serial
    have hser : serialsOf (insertHandle of granted ino cid s).2.sess.handles =
        {s.host.opened} + serialsOf s.sess.handles := Multiset.coe_eq_coe.2 hperm
    have hfin : (insertHandle of granted ino cid s).2.host.finished = s.host.finished := by
      cases granted <;> rfl
    rw [hser, hfin, insertHandle_opened, Multiset.range_succ, ← Multiset.singleton_add]
    abel
  held := by
    intro g hg
    cases granted with
    | none => exact Or.inl hg
    | some l =>
      rcases LeaseTable.held_grant hg with rfl | hg
      · exact Or.inr ⟨h rfl _ rfl, rfl⟩
      · exact Or.inl hg
  queued := by
    intro b hb
    cases granted <;> exact Or.inl hb
  pends := fun _ hp => Or.inl hp

end

theorem Sx.Does.step {os : Os σ} {e : Effect} {s t : Sx σ} (h : Sx.Does os e s t)
    (he : e.within add) : Sx.Step add s t := by
  cases h with
  | call h => exact .onHost (.os s.host _)
  | breaks key except => exact .onHost (breakLeases_step _ key except s.host)
  | touch fid tch =>
    exact .inSession ⟨rfl, rfl, rfl, rfl, rfl, rfl⟩ rfl rfl rfl
      (congrArg Multiset.ofList
        (HandleTable.map_live_modify OpenFile.serial _ fid _ tch.apply_serial)) rfl
  | connect tree | disconnect => exact .inSession ⟨rfl, rfl, rfl, rfl, rfl, rfl⟩ rfl rfl rfl rfl rfl
  | close h ho => exact close_step add h _ _ rfl
  | cleanup fid => exact .inSession (.refl _) rfl rfl rfl rfl rfl
  | insert of granted ino cid _ hroom => exact insertHandle_step add of granted ino cid s he
  | accept hof =>
    refine ⟨.refl _, rfl, rfl, rfl, fun _ hg => Or.inl hg, fun _ hb => Or.inl hb, fun p hp => ?_⟩
    rcases List.mem_append.1 hp with hp | hp
    · exact Or.inl hp
    · obtain rfl := List.mem_singleton.1 hp
      refine Or.inr ⟨he _ ⟨rfl, rfl, rfl, ?_⟩, rfl⟩
      rw [UInt32.le_iff_toNat_le, UInt32.toNat_min]
      exact min_le_right _ _

end

/-- **What a request does**, from the effects of its handler. -/
theorem Sx.Acts.step {add : Adds} {os : Os σ} {P : Effect → Prop} {s t : Sx σ}
    (h : Sx.Acts os P s t) (hP : ∀ e, P e → e.within add) : Sx.Step add s t :=
  h.rel fun e he _ _ hd => hd.step add (hP e he)

end RocketSmbd
