import RocketSmbd.Life.Ids

/-!
# The life of a channel

`Became` says what one move can make of the channel of one session; the invariants of single
channels are read off from it.  `ChannelState.Quiet`: a channel in use is not being set up; this
holds in runs that draw no session id twice.
-/

namespace RocketSmbd

open ByteString Vfs

variable {σ : Type}

/-- What a move from `k` to `k'` has made of the channel of session `sid`. -/
inductive Became (srv : Srv σ) (k k' : Core) (sid : UInt64) : ChannelState → Prop
  /-- The channel is as before. -/
  | same (ch : ChannelState) (h : k.channels.lookup sid = some ch) : Became srv k k' sid ch
  /-- A new channel without keys, not in the place of one in use unless that has the id drawn. -/
  | opened (pending : Option PendingAuth) (krbPending : Option ℕ) (preauth : Bytes)
      (hone : pending = none ∨ krbPending = none)
      (hfree : k'.created = k.created ++ [sid] ∨
        ¬ (k.channels.lookup sid).any (·.established)) :
    Became srv k k' sid { pending, krbPending, preauth }
  /-- A session id that names an old channel was drawn for a Kerberos exchange. -/
  | redrawn (ch : ChannelState) (krbPending : Option ℕ) (preauth : Bytes)
      (h : k.channels.lookup sid = some ch) (hdrawn : k'.created = k.created ++ [sid]) :
    Became srv k k' sid { ch with krbPending, preauth }
  /-- One more message of a setup. -/
  | leg (ch : ChannelState) (pending : Option PendingAuth) (krbPending : Option ℕ)
      (preauth : Bytes) (h : k.channels.lookup sid = some ch)
      (hpending : pending.isSome → ch.pending.isSome)
      (hkrb : krbPending.isSome → ch.krbPending.isSome) :
    Became srv k k' sid { ch with pending, krbPending, preauth }
  /-- The setup of the channel is complete. -/
  | keyed (ch ch₀ ch' : ChannelState) (preauth : Bytes) (hist₀ hist : ConnHist)
      (h : k.channels.lookup sid = some ch) (hset : ch.pending.isSome ∨ ch.krbPending.isSome)
      (h₀ : (ch.pending.isSome ∧ ch₀ = { ch with pending := none, preauth }) ∨ ch₀ = { preauth })
      (hkey : k.Keyed srv hist₀ ch₀ ch' hist) : Became srv k k' sid ch'
  /-- The setup of a session was complete with its first message. -/
  | keyedNew (ch' : ChannelState) (preauth : Bytes) (hist : ConnHist)
      (hdrawn : k'.created = k.created ++ [sid]) (hkey : k.Keyed srv k.hist { preauth } ch' hist) :
    Became srv k k' sid ch'
  /-- A sealed frame arrived. -/
  | encrypting (ch : ChannelState) (e : EncCtx) (h : k.channels.lookup sid = some ch)
      (he : ch.enc = some e) : Became srv k k' sid { ch with encrypt := true }
  /-- A frame was sealed. -/
  | counted (ch : ChannelState) (e : EncCtx) (h : k.channels.lookup sid = some ch)
      (he : ch.enc = some e) : Became srv k k' sid { ch with enc := some e.next }

section

variable {srv : Srv σ} {l : Label} {k k' : Core} {sid : UInt64} {ch : ChannelState}

/-- A table changed at one key: the new value there, the old ones elsewhere. -/
theorem Became.of_insert {sid' : UInt64} {ch' : ChannelState}
    (h : (k.channels.insert sid' ch').lookup sid = some ch)
    (hnew : sid = sid' → Became srv k k' sid' ch') : Became srv k k' sid ch := by
  rw [FinMap.lookup_insert] at h
  split_ifs at h with hsid
  · obtain rfl := Option.some.inj h
    exact hsid ▸ hnew hsid
  · exact .same ch h

theorem Became.of_erase {sid' : UInt64} (h : (k.channels.erase sid').lookup sid = some ch) :
    Became srv k k' sid ch := by
  rw [FinMap.lookup_erase] at h
  split_ifs at h
  exact .same ch h

theorem Became.of_lost {channels : FinMap UInt64 ChannelState} (hlost : k.Lost channels)
    (h : channels.lookup sid = some ch) : Became srv k k' sid ch := by
  obtain ⟨sid', ch', hch, -, -, rfl⟩ := hlost
  exact .of_insert h fun _ => .leg ch' ch'.pending none ch'.preauth hch id (by simp)

theorem ChannelState.settingUp.isSome (h : ch.settingUp) :
    ch.pending.isSome ∨ ch.krbPending.isSome := by
  rcases h with ⟨p, hp, -⟩ | h
  · exact Or.inl (by rw [hp]; rfl)
  · exact Or.inr h

/-- **What a move makes of a channel.** -/
theorem Move.became (h : Move srv l k k') (hch : k'.channels.lookup sid = some ch) :
    Became srv k k' sid ch := by
  cases h with
  | begin sid' ch' _ _ _ hopen =>
    refine .of_insert hch fun _ => ?_
    rcases hopen with ⟨p, preauth, -, rfl, -⟩ | ⟨ctx, preauth, rfl, -⟩
    · exact .opened (some p) none preauth (Or.inr rfl) (Or.inl rfl)
    · cases hold : k.channels.lookup sid' with
      | none => exact .opened none (some ctx) preauth (Or.inl rfl) (Or.inl rfl)
      | some old => exact .redrawn old (some ctx) preauth hold rfl
  | beginBind sid' s p preauth _ _ hfree =>
    exact .of_insert hch fun _ => .opened (some p) none preauth (Or.inr rfl) (Or.inr hfree)
  | extend sid' ch' preauth hch' =>
    exact .of_insert hch fun _ => .leg ch' ch'.pending ch'.krbPending preauth hch' id id
  | spent sid' ch' _ preauth hch' =>
    exact .of_insert hch fun _ => .leg ch' none ch'.krbPending preauth hch' (by simp) id
  | lost _ _ hlost => exact .of_lost hlost hch
  | further sid' ch' ctx preauth hch' hkrb =>
    exact .of_insert hch fun _ => .leg ch' ch'.pending (some ctx) preauth hch' id fun _ => hkrb
  | abandon | unbind | logoff | teardown => exact .of_erase hch
  | establish sid' ch' ch₀ _ _ _ preauth hist₀ hist hch' hset _ _ _ _ h₀ _ hkey =>
    exact .of_insert hch fun _ => .keyed ch' ch₀ _ preauth hist₀ hist hch' hset.isSome h₀ hkey
  | establishNew sid' ch' _ preauth hist channels _ hchs _ _ _ hkey =>
    dsimp only at hch
    rw [FinMap.lookup_insert] at hch
    split_ifs at hch with hsid
    · obtain rfl := Option.some.inj hch
      exact hsid ▸ .keyedNew _ preauth hist rfl hkey
    · rcases hchs with rfl | hlost
      · exact .same ch hch
      · exact .of_lost hlost hch
  | bind sid' ch' _ p _ preauth hist hch' hp _ _ _ hkey =>
    have hsome : ch'.pending.isSome := by rw [hp]; rfl
    exact .of_insert hch fun _ =>
      .keyed ch' _ _ preauth _ hist hch' (Or.inl hsome) (Or.inl ⟨hsome, rfl⟩) hkey
  | decrypt sid' ch' e hch' he => exact .of_insert hch fun _ => .encrypting ch' e hch' he
  | sealHeld sid' ch' e hch' he => exact .of_insert hch fun _ => .counted ch' e hch' he
  | completeSealed p _ _ ch' e _ _ hch' hseal =>
    exact .of_insert hch fun _ => .counted ch' e hch' hseal.2
  | negotiate | request | chainNeg | sealGone | silent | completeOpen | forget =>
    exact .same ch hch

/-- What the channels of a connection keep one by one, moves keep. -/
theorem Moves.channels {ok : Label → Core → Prop} {P : ChannelState → Prop}
    (hP : ∀ a b sid ch, Became srv a b sid ch →
      (∀ sid ch, a.channels.lookup sid = some ch → P ch) → P ch)
    (h : Moves srv ok k k') (hk : ∀ sid ch, k.channels.lookup sid = some ch → P ch) :
    ∀ sid ch, k'.channels.lookup sid = some ch → P ch :=
  h.induct (P := fun a => ∀ sid ch, a.channels.lookup sid = some ch → P ch)
    (fun _ a b _ hm ha sid ch hch => hP a b sid ch (hm.became hch) ha) hk

end

/-! ### Channels in use -/

/-- An established channel is not being set up, and a setup is of one kind. -/
structure ChannelState.Quiet (ch : ChannelState) : Prop where
  established : ch.established = true → ch.pending = none ∧ ch.krbPending = none
  single : ch.pending = none ∨ ch.krbPending = none

/-- The channels of a connection are quiet. -/
def Core.Quiet (k : Core) : Prop := ∀ sid ch, k.channels.lookup sid = some ch → ch.Quiet

section

variable {srv : Srv σ} {l : Label} {k k' : Core} {sid : UInt64} {ch : ChannelState}

/-- An id that was just drawn was not drawn before. -/
theorem fresh_of_nodup {created : List UInt64} (h : (created ++ [sid]).Nodup) :
    sid ∉ created := by
  intro hmem
  exact (List.nodup_append.1 h).2.2 sid hmem sid (List.mem_singleton_self sid) rfl

theorem Core.Keyed.quiet {ch₀ : ChannelState} {hist₀ hist : ConnHist}
    (h : k.Keyed srv hist₀ ch₀ ch hist)
    (h₀ : ch₀.pending = none ∧ ch₀.krbPending = none) : ch.Quiet := by
  cases h with
  | user | guest => exact ⟨fun _ => h₀, Or.inl h₀.1⟩

theorem Became.quiet (h : Became srv k k' sid ch) (hk : k.Quiet) (hknown : k.Known)
    (hnodup : k'.created.Nodup) : ch.Quiet := by
  cases h with
  | same ch h => exact hk sid ch h
  | opened pending krbPending preauth hone _ => exact ⟨by simp, hone⟩
  | redrawn ch _ _ h hdrawn =>
    exact absurd (hknown.channels sid (mem_of_lookup h)) (fresh_of_nodup (hdrawn ▸ hnodup))
  | leg ch pending krbPending preauth h hpending hkrb =>
    have hquiet := hk sid ch h
    have hnone : ∀ {α β : Type} {a : Option α} {b : Option β}, (a.isSome → b.isSome) →
        b = none → a = none := by
      intro α β a b hab hb
      cases a with
      | none => rfl
      | some x => simp [hb] at hab
    exact ⟨fun he => ⟨hnone hpending (hquiet.established he).1,
      hnone hkrb (hquiet.established he).2⟩, hquiet.single.imp (hnone hpending) (hnone hkrb)⟩
  | keyed ch ch₀ _ preauth _ hist h hset h₀ hkey =>
    refine hkey.quiet ?_
    rcases h₀ with ⟨hp, rfl⟩ | rfl
    · rcases (hk sid ch h).single with hnone | hnone
      · rw [hnone] at hp
        exact absurd hp (by simp)
      · exact ⟨rfl, hnone⟩
    · exact ⟨rfl, rfl⟩
  | keyedNew _ preauth hist _ hkey => exact hkey.quiet ⟨rfl, rfl⟩
  | encrypting ch e h | counted ch e h => exact ⟨(hk sid ch h).established, (hk sid ch h).single⟩

theorem Move.quiet (h : Move srv l k k') (hk : k.Quiet) (hknown : k.Known)
    (hnodup : k'.created.Nodup) : k'.Quiet :=
  fun _ _ hch => (h.became hch).quiet hk hknown hnodup

/-- What stays of a channel in use: it is established, its keys are the same, and once it encrypts
it does so for good. -/
structure ChannelState.InUse (ch ch' : ChannelState) : Prop where
  established : ch'.established = true
  encrypt : ch.encrypt = true → ch'.encrypt = true
  sign : ch'.sign = ch.sign
  signingRequired : ch'.signingRequired = ch.signingRequired
  s2c : ch'.enc.map EncCtx.s2c = ch.enc.map EncCtx.s2c

theorem ChannelState.InUse.refl (hest : ch.established = true) : ch.InUse ch :=
  ⟨hest, id, rfl, rfl, rfl⟩

theorem ChannelState.InUse.trans {ch' ch'' : ChannelState} (h₁ : ch.InUse ch')
    (h₂ : ch'.InUse ch'') : ch.InUse ch'' where
  established := h₂.established
  encrypt := fun h => h₂.encrypt (h₁.encrypt h)
  sign := h₂.sign.trans h₁.sign
  signingRequired := h₂.signingRequired.trans h₁.signingRequired
  s2c := h₂.s2c.trans h₁.s2c

theorem Became.in_use {ch' : ChannelState} (h : Became srv k k' sid ch')
    (hch : k.channels.lookup sid = some ch) (hest : ch.established = true) (hk : k.Quiet)
    (hknown : k.Known) (hnodup : k'.created.Nodup) : ch.InUse ch' := by
  have hdrawn : k'.created ≠ k.created ++ [sid] := fun hd =>
    fresh_of_nodup (hd ▸ hnodup) (hknown.channels sid (mem_of_lookup hch))
  have hcase : ∀ {d}, k.channels.lookup sid = some d → d = ch := fun hd =>
    Option.some.inj (hd.symm.trans hch)
  cases h with
  | same d h =>
    obtain rfl := hcase h
    exact .refl hest
  | opened _ _ _ _ hfree =>
    rcases hfree with hd | hfree
    · exact absurd hd hdrawn
    · exact absurd (by rw [hch]; simpa using hest) hfree
  | redrawn _ _ _ _ hd | keyedNew _ _ _ hd => exact absurd hd hdrawn
  | leg d _ _ _ h =>
    obtain rfl := hcase h
    exact ⟨hest, id, rfl, rfl, rfl⟩
  | keyed d _ _ _ _ _ h hset =>
    obtain rfl := hcase h
    obtain ⟨hp, hkrb⟩ := (hk sid d h).established hest
    simp [hp, hkrb] at hset
  | encrypting d e h =>
    obtain rfl := hcase h
    exact ⟨hest, fun _ => rfl, rfl, rfl, rfl⟩
  | counted d e h he =>
    obtain rfl := hcase h
    refine ⟨hest, id, rfl, rfl, ?_⟩
    rw [he]
    rfl

/-- An established channel stays until the client logs off or the connection goes. -/
theorem Move.lookup_isSome (h : Move srv l k k') (hlogoff : l ≠ .logoff sid)
    (hteardown : l ≠ .teardown) (hk : k.Quiet) (hch : k.channels.lookup sid = some ch)
    (hest : ch.established = true) : ∃ ch', k'.channels.lookup sid = some ch' := by
  have hinsert : ∀ (sid' : UInt64) (ch' : ChannelState) (m : FinMap UInt64 ChannelState),
      (∃ d, m.lookup sid = some d) → ∃ d, (m.insert sid' ch').lookup sid = some d := by
    intro sid' ch' m hm
    rw [FinMap.lookup_insert]
    split_ifs
    · exact ⟨ch', rfl⟩
    · exact hm
  have herase : ∀ (sid' : UInt64), sid ≠ sid' →
      ∃ d, (k.channels.erase sid').lookup sid = some d := by
    intro sid' hne
    rw [FinMap.lookup_erase, if_neg hne]
    exact ⟨ch, hch⟩
  have hlost : ∀ channels, k.Lost channels → ∃ d, channels.lookup sid = some d := by
    rintro channels ⟨sid', ch', -, -, -, rfl⟩
    exact hinsert _ _ _ ⟨ch, hch⟩
  cases h with
  | begin | beginBind | extend | spent | further | establish | bind | decrypt | sealHeld
  | completeSealed => exact hinsert _ _ _ ⟨ch, hch⟩
  | lost _ channels h => exact hlost channels h
  | establishNew _ _ _ _ _ channels _ hchs =>
    refine hinsert _ _ _ ?_
    rcases hchs with rfl | h
    · exact ⟨ch, hch⟩
    · exact hlost channels h
  | abandon sid' ch' _ hch' hset =>
    refine herase sid' fun heq => ?_
    obtain rfl := Option.some.inj ((heq ▸ hch').symm.trans hch)
    obtain ⟨hp, hkrb⟩ := (hk sid ch' hch).established hest
    simpa [hp, hkrb] using hset.isSome
  | unbind sid' ch' p hch' hp =>
    refine herase sid' fun heq => ?_
    obtain rfl := Option.some.inj ((heq ▸ hch').symm.trans hch)
    simpa [hp] using ((hk sid ch' hch).established hest).1
  | logoff sid' => exact herase sid' fun heq => hlogoff (by rw [heq])
  | teardown => exact absurd rfl hteardown
  | negotiate | request | chainNeg | sealGone | silent | completeOpen | forget => exact ⟨ch, hch⟩

/-- Moves that draw no id twice keep what their moves keep of known and quiet cores. -/
theorem Moves.induct_quiet {ok : Label → Core → Prop} {P : Core → Prop}
    (hP : ∀ l a b, ok l a → Move srv l a b → a.Known → a.Quiet → b.created.Nodup → P a → P b)
    (h : Moves srv ok k k') (hnodup : k'.created.Nodup) (hknown : k.Known) (hquiet : k.Quiet)
    (hk : P k) : k'.Known ∧ k'.Quiet ∧ P k' := by
  have hall : k'.Known ∧ (k'.created.Nodup → k'.Quiet ∧ P k') := by
    refine h.induct (P := fun a => a.Known ∧ (a.created.Nodup → a.Quiet ∧ P a))
      (fun l a b hok hm ha => ⟨hm.known ha.1, fun hb => ?_⟩) ⟨hknown, fun _ => ⟨hquiet, hk⟩⟩
    obtain ⟨hq, hp⟩ := ha.2 (hm.created_prefix.sublist.nodup hb)
    exact ⟨hm.quiet hq ha.1 hb, hP l a b hok hm ha.1 hq hb hp⟩
  exact ⟨hall.1, hall.2 hnodup⟩

/-- A channel in use stays in use until the client logs off. -/
theorem Moves.in_use {ok : Label → Core → Prop} (h : Moves srv (Serving ok) k k')
    (hok : ∀ l k, ok l k → l ≠ .logoff sid) (hnodup : k'.created.Nodup) (hknown : k.Known)
    (hquiet : k.Quiet) (hch : k.channels.lookup sid = some ch) (hest : ch.established = true) :
    ∃ ch', k'.channels.lookup sid = some ch' ∧ ch.InUse ch' := by
  refine (h.induct_quiet (P := fun a => ∃ ch', a.channels.lookup sid = some ch' ∧ ch.InUse ch')
    (fun l a b hl hm ha hq hb hP => ?_) hnodup hknown hquiet ⟨ch, hch, .refl hest⟩).2.2
  obtain ⟨ch₁, hch₁, huse⟩ := hP
  obtain ⟨ch₂, hch₂⟩ := hm.lookup_isSome (hok l a hl.1) hl.2 hq hch₁ huse.established
  exact ⟨ch₂, hch₂, huse.trans ((hm.became hch₂).in_use hch₁ huse.established hq ha hb)⟩

end

/-! ### What is a connection's own -/

/-- `P` is about channels, pends, history and key of a connection, and holds when it is new. -/
structure OfConn (P : Core → Prop) : Prop where
  own : ∀ a b : Core, b.channels = a.channels → b.pends = a.pends → b.hist = a.hist →
    b.key = a.key → P a → P b
  new : ∀ k : Core, k.channels = ∅ → k.pends = [] → k.hist = {} → k.key = none → P k

/-- `P` holds of every connection. -/
def World.Each (w : World σ) (P : Core → Prop) : Prop :=
  ∀ id c, w.conns.lookup id = some c → P (c.core w.shared)

/-- The channels of a connection, one by one. -/
theorem ofConn_channels (P : ChannelState → Prop) :
    OfConn fun k => ∀ sid ch, k.channels.lookup sid = some ch → P ch :=
  ⟨fun _ _ hchs _ _ _ ha => hchs ▸ ha, fun _ hchs _ _ _ sid ch hch => by simp [hchs] at hch⟩

section

variable {srv : Srv σ} {ok : ConnId → Label → Core → Prop} {gone : ConnId → Prop}
  {w w' : World σ} {P : Core → Prop}

/-- What the moves of a connection keep of it, an action keeps of every connection. -/
theorem Act.each_moved (hP : OfConn P) (h : Act srv ok gone w w') (hw : w.Each P)
    (hmoved : ∀ id (c c' : Conn), w.conns.lookup id = some c →
      Moves srv (Serving (ok id)) (c.core w.shared) (c'.core w'.shared) →
      P (c'.core w'.shared)) : w'.Each P := by
  intro id c' hc'
  cases h.fate hc' with
  | new _ hproto hwatches =>
    refine hP.new _ ?_ ?_ ?_ rfl
    · rw [Conn.core, hproto]
      rfl
    · rw [Conn.core, Conn.pends, hwatches, hproto]
      rfl
    · rw [Conn.core, hproto]
      rfl
  | same c hc hlife =>
    have hproto : c'.proto = c.proto := congrArg (fun l => l.2.1) hlife
    refine hP.own (c.core w.shared) _ ?_ (Conn.pends_of_life hlife) ?_ rfl (hw id c hc)
    · rw [Conn.core, hproto]
      rfl
    · rw [Conn.core, hproto]
      rfl
  | moved c hc _ hmoves => exact hmoved id c c' hc hmoves

theorem World.run_own (hP : OfConn P)
    (hmoves : ∀ {ok : Label → Core → Prop} {k k'}, Moves srv ok k k' → P k → P k')
    (workers : ℕ) (os : σ) (es : List Event) : ((World.start workers os).run srv es).Each P :=
  World.run_invariant (P := fun w => w.Each P)
    (fun _ _ hact ha => hact.each_moved hP ha fun id c _ hc hm => hmoves hm (ha id c hc)) _ es
    fun id c hc => absurd hc (by simp [World.start])

/-- What the channels of all connections keep one by one, a run keeps. -/
theorem World.run_channels {P : ChannelState → Prop}
    (hP : ∀ a b sid ch, Became srv a b sid ch →
      (∀ sid ch, a.channels.lookup sid = some ch → P ch) → P ch)
    (workers : ℕ) (os : σ) (es : List Event) :
    ∀ id c, ((World.start workers os).run srv es).conns.lookup id = some c →
      ∀ sid ch, c.proto.channels.lookup sid = some ch → P ch :=
  World.run_own (ofConn_channels P) (fun hm hk => hm.channels hP hk) workers os es

end

/-! ### Worlds -/

/-- The channels of every connection are quiet. -/
def World.Quiet (w : World σ) : Prop :=
  ∀ id c, w.conns.lookup id = some c → (c.core w.shared).Quiet

section

variable {srv : Srv σ} {ok : ConnId → Label → Core → Prop} {gone : ConnId → Prop}
  {w w' : World σ}

theorem Act.quiet (h : Act srv ok gone w w') (hknown : w.Known) (hw : w.Quiet)
    (hnodup : w'.shared.created.Nodup) : w'.Quiet :=
  h.each_moved (ofConn_channels _) hw fun id c _ hc hmoves =>
    (hmoves.induct_quiet (P := fun _ => True) (fun _ _ _ _ _ _ _ _ _ => trivial) hnodup
      (hknown.core hc) (hw id c hc) trivial).2.1

theorem World.run_quiet (workers : ℕ) (os : σ) (es : List Event)
    (hnodup : ((World.start workers os).run srv es).shared.created.Nodup) :
    ((World.start workers os).run srv es).Quiet := by
  have hstep : ∀ a b : World σ, Act srv anyMove (fun _ => True) a b →
      a.Known ∧ (a.shared.created.Nodup → a.Quiet) →
      b.Known ∧ (b.shared.created.Nodup → b.Quiet) := fun a b hact ha =>
    ⟨hact.known ha.1, fun hb =>
      hact.quiet ha.1 (ha.2 (hact.created_prefix.sublist.nodup hb)) hb⟩
  exact (World.run_invariant hstep (World.start workers os) es ⟨World.known_start workers os,
    fun _ id c hc => absurd hc (by simp [World.start])⟩).2 hnodup

theorem Act.each {P : Core → Prop} (hP : OfConn P)
    (hmove : ∀ id l a b, Serving (ok id) l a → Move srv l a b → a.Known → a.Quiet →
      b.created.Nodup → P a → P b)
    (h : Act srv ok gone w w') (hknown : w.Known) (hquiet : w.Quiet)
    (hnodup : w'.shared.created.Nodup) (hw : w.Each P) : w'.Each P :=
  h.each_moved hP hw fun id c _ hc hmoves =>
    (hmoves.induct_quiet (hmove id) hnodup (hknown.core hc) (hquiet id c hc) (hw id c hc)).2.2

/-- What the moves of a connection keep of it, a run keeps of every connection, if no session id
is drawn twice. -/
theorem World.run_each (hok : ∀ id, Lenient (ok id)) {P : Core → Prop} (hP : OfConn P)
    (hmove : ∀ id l a b, Serving (ok id) l a → Move srv l a b → a.Known → a.Quiet →
      b.created.Nodup → P a → P b) (workers : ℕ) (os : σ) (es : List Event)
    (hes : (World.start workers os).Always srv (fun w e => e.Permitted srv ok w) es)
    (hnodup : ((World.start workers os).run srv es).shared.created.Nodup) :
    ((World.start workers os).run srv es).Each P := by
  have hstep : ∀ a b : World σ, Act srv ok (fun _ => True) a b →
      a.Known ∧ (a.shared.created.Nodup → a.Quiet ∧ a.Each P) →
      b.Known ∧ (b.shared.created.Nodup → b.Quiet ∧ b.Each P) := by
    intro a b hact ha
    refine ⟨hact.known ha.1, fun hb => ?_⟩
    obtain ⟨hquiet, heach⟩ := ha.2 (hact.created_prefix.sublist.nodup hb)
    exact ⟨hact.quiet ha.1 hquiet hb, hact.each hP hmove ha.1 hquiet hb heach⟩
  exact ((World.run_induct srv hok hstep (World.start workers os) es hes (fun _ _ => trivial)
    ⟨World.known_start workers os, fun _ => ⟨fun id c hc => absurd hc (by simp [World.start]),
      fun id c hc => absurd hc (by simp [World.start])⟩⟩).2 hnodup).2

end

end RocketSmbd
