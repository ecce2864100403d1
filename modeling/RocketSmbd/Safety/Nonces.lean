import RocketSmbd.Lib.KeyCounters
import RocketSmbd.Life.Channel
import RocketSmbd.Sample

/-!
# Nonces

The channels of a connection hold their s2c keys as `KeyCounters` describes it: the session id is
the holder, a setup issues a key, a frame that is sealed uses it, and the keys of the sealed frame
that is being processed are lent out (`Move.counters`).  So a nonce is never used twice.
-/

namespace RocketSmbd

open ByteString Vfs

variable {σ : Type}

/-- The key of a channel and its counter. -/
def EncCtx.counter (e : EncCtx) : Bytes × ℕ := (e.s2c, e.nonceCtr)

/-- The keys of the channel of session `sid`. -/
def Core.encAt (k : Core) (sid : UInt64) : Option EncCtx :=
  (k.channels.lookup sid).bind ChannelState.enc

/-- The keys of a connection. -/
def Core.counters (k : Core) : KeyCounters.State UInt64 Bytes where
  holds sid := (k.encAt sid).map EncCtx.counter
  lent := k.key.map fun r => (r.1, r.2.counter)
  issued := k.hist.setups.map Prod.snd
  used := k.hist.seals

section

variable {srv : Srv σ} {l : Label} {k k' : Core} {sid : UInt64} {ch : ChannelState}

open KeyCounters (Step)

theorem Core.encAt_eq (h : k.channels.lookup sid = some ch) : k.encAt sid = ch.enc := by
  rw [Core.encAt, h]
  rfl

theorem Core.encAt_insert (h : k'.channels = k.channels.insert sid ch) (sid' : UInt64) :
    k'.encAt sid' = if sid' = sid then ch.enc else k.encAt sid' := by
  rw [Core.encAt, h, FinMap.lookup_insert]
  split_ifs <;> rfl

theorem Core.encAt_erase (h : k'.channels = k.channels.erase sid) (sid' : UInt64) :
    k'.encAt sid' = if sid' = sid then none else k.encAt sid' := by
  rw [Core.encAt, h, FinMap.lookup_erase]
  split_ifs <;> rfl

theorem Core.Lost.encAt {channels : FinMap UInt64 ChannelState} (h : k.Lost channels)
    (hk' : k'.channels = channels) (sid : UInt64) : k'.encAt sid = k.encAt sid := by
  obtain ⟨sid', ch, hch, -, -, rfl⟩ := h
  rw [Core.encAt_insert hk']
  split_ifs with heq
  · rw [heq, Core.encAt_eq hch]
  · rfl

/-- A move that derives and uses no key. -/
theorem Core.counters_keep (hencs : ∀ sid, k'.encAt sid = none ∨ k'.encAt sid = k.encAt sid)
    (hkey : k'.key = k.key) (hsetups : k'.hist.setups = k.hist.setups)
    (hseals : k'.hist.seals = k.hist.seals) : Step k.counters k'.counters := by
  have h : Step k.counters { k.counters with holds := k'.counters.holds } :=
    .keep _ fun sid => (hencs sid).imp (fun h => by simp [Core.counters, h])
      fun h => by simp [Core.counters, h]
  have heq : k'.counters = { k.counters with holds := k'.counters.holds } := by
    unfold Core.counters
    rw [hkey, hsetups, hseals]
  rw [heq]
  exact h

/-- A move that changes one channel and derives and uses no key. -/
theorem Core.counters_insert (h : k'.channels = k.channels.insert sid ch)
    (hch : ch.enc = none ∨ ch.enc = k.encAt sid) (hkey : k'.key = k.key)
    (hhist : k'.hist.rest = k.hist.rest) : Step k.counters k'.counters := by
  refine Core.counters_keep (fun sid' => ?_) hkey (congrArg Prod.fst hhist)
    (congrArg (fun r => r.2.1) hhist)
  rw [Core.encAt_insert h]
  split_ifs with heq
  · exact heq ▸ hch
  · exact Or.inr rfl

theorem Core.counters_erase (h : k'.channels = k.channels.erase sid) (hkey : k'.key = k.key)
    (hhist : k'.hist.rest = k.hist.rest) : Step k.counters k'.counters := by
  refine Core.counters_keep (fun sid' => ?_) hkey (congrArg Prod.fst hhist)
    (congrArg (fun r => r.2.1) hhist)
  rw [Core.encAt_erase h]
  split_ifs
  · exact Or.inl rfl
  · exact Or.inr rfl

/-- A setup that is complete issues a key, or none. -/
theorem Core.Keyed.counters {ch₀ ch' : ChannelState} {hist₀ hist : ConnHist}
    (h : k.Keyed srv hist₀ ch₀ ch' hist) (hrest : hist₀.rest = k.hist.rest) (sid : UInt64)
    (h₀ : ch₀.enc = none ∨ ch₀.enc = k.encAt sid)
    (hsid : k'.encAt sid = ch'.enc) (hother : ∀ sid', sid' ≠ sid → k'.encAt sid' = k.encAt sid')
    (hkey : k'.key = k.key) (hhist : k'.hist = hist) : Step k.counters k'.counters := by
  have hsetups₀ : hist₀.setups = k.hist.setups := congrArg Prod.fst hrest
  have hseals₀ : hist₀.seals = k.hist.seals := congrArg (fun r => r.2.1) hrest
  have hkeep : ch'.enc = ch₀.enc → k'.hist.setups = k.hist.setups →
      k'.hist.seals = k.hist.seals → Step k.counters k'.counters := by
    intro henc hsetups hseals
    refine Core.counters_keep (fun sid' => ?_) hkey hsetups hseals
    by_cases heq : sid' = sid
    · rw [heq, hsid, henc]
      exact h₀
    · exact Or.inr (hother sid' heq)
  cases h with
  | guest => exact hkeep rfl (by rw [hhist, hsetups₀]) (by rw [hhist, hseals₀])
  | user required key hseal =>
    cases he : deriveEnc srv.env.crypto k.dialect k.cipher key ch₀.preauth with
    | none =>
      rw [he] at hhist
      refine hkeep (by simp [authenticated, he]) ?_ (by rw [hhist]; exact hseals₀)
      rw [hhist]
      exact (List.append_nil _).trans hsetups₀
    | some e =>
      have hzero : e.nonceCtr = 0 := by
        unfold deriveEnc at he
        split_ifs at he
        obtain rfl := Option.some.inj he
        rfl
      have heq : k'.counters = { k.counters with
          holds := Function.update k.counters.holds sid (some (e.s2c, 0))
          issued := k.counters.issued ++ [e.s2c] } := by
        have hholds : k'.counters.holds =
            Function.update k.counters.holds sid (some (e.s2c, 0)) := by
          funext sid'
          by_cases heq : sid' = sid
          · rw [heq, Function.update_self]
            simp [Core.counters, hsid, authenticated, he, EncCtx.counter, hzero]
          · rw [Function.update_of_ne heq]
            simp [Core.counters, hother sid' heq]
        rw [← hholds]
        simp [Core.counters, hkey, hhist, ConnHist.logSetup, he, hsetups₀, hseals₀]
      rw [heq]
      exact .issue sid e.s2c

/-- A channel that seals a frame uses its key. -/
theorem Core.counters_use {e : EncCtx} (hch : k.channels.lookup sid = some ch)
    (he : ch.enc = some e) (h : k'.channels = k.channels.insert sid { ch with enc := some e.next })
    (hkey : k'.key = none) (hsetups : k'.hist.setups = k.hist.setups)
    (hseals : k'.hist.seals = k.hist.seals ++ [e.next.counter]) :
    Step k.counters k'.counters := by
  have hholds : k'.counters.holds =
      Function.update k.counters.holds sid (some (e.s2c, e.nonceCtr + 1)) := by
    funext sid'
    simp only [Core.counters, Core.encAt_insert h]
    by_cases heq : sid' = sid
    · rw [heq, Function.update_self, if_pos rfl]
      rfl
    · rw [Function.update_of_ne heq, if_neg heq]
  have heq : k'.counters = { k.counters with
      holds := Function.update k.counters.holds sid (some (e.s2c, e.nonceCtr + 1)), lent := none
      used := k.counters.used ++ [(e.s2c, e.nonceCtr + 1)] } := by
    rw [← hholds]
    simp only [Core.counters, hkey, hsetups, hseals]
    rfl
  rw [heq]
  refine .use sid e.s2c e.nonceCtr ?_
  simp [Core.counters, Core.encAt_eq hch, he, EncCtx.counter]

/-- **The moves of a connection are steps of key counters.** -/
theorem Move.counters (h : Move srv l k k') : Step k.counters k'.counters := by
  have hsame : ∀ {k'' : Core}, k''.channels = k.channels → k''.key = k.key →
      k''.hist.setups = k.hist.setups → k''.hist.seals = k.hist.seals →
      Step k.counters k''.counters := fun hch =>
    Core.counters_keep fun sid => Or.inr (by rw [Core.encAt, hch]; rfl)
  cases h with
  | negotiate | request | chainNeg | completeOpen | forget => exact hsame rfl rfl rfl rfl
  | begin sid ch _ _ _ hopen =>
    refine Core.counters_insert rfl ?_ rfl hopen.rest
    rcases hopen with ⟨p, preauth, -, rfl, -⟩ | ⟨ctx, preauth, rfl, -⟩
    · exact Or.inl rfl
    · cases hold : k.channels.lookup sid with
      | none => exact Or.inl rfl
      | some old => exact Or.inr (Core.encAt_eq hold).symm
  | beginBind => exact Core.counters_insert rfl (Or.inl rfl) rfl rfl
  | extend sid ch _ hch | spent sid ch _ _ hch | further sid ch _ _ hch =>
    exact Core.counters_insert rfl (Or.inr (Core.encAt_eq hch).symm) rfl rfl
  | lost _ _ hlost =>
    exact Core.counters_keep (fun sid => Or.inr (hlost.encAt rfl sid)) rfl rfl rfl
  | abandon _ _ _ _ _ hend => exact Core.counters_erase rfl rfl hend.rest
  | unbind | logoff | teardown => exact Core.counters_erase rfl rfl rfl
  | establish sid ch ch₀ _ _ _ _ _ _ hch _ _ _ _ _ h₀ hend hkey =>
    refine hkey.counters hend.rest sid ?_ ?_ (fun sid' hne => ?_) rfl rfl
    · rcases h₀ with ⟨-, rfl⟩ | rfl
      · exact Or.inr (Core.encAt_eq hch).symm
      · exact Or.inl rfl
    · rw [Core.encAt_insert rfl, if_pos rfl]
    · rw [Core.encAt_insert rfl, if_neg hne]
  | establishNew sid ch' _ _ _ channels _ hchs _ _ _ hkey =>
    have hk : ∀ sid', (channels.lookup sid').bind ChannelState.enc = k.encAt sid' := by
      intro sid'
      rcases hchs with rfl | hlost
      · rfl
      · exact hlost.encAt (show ({ k with channels } : Core).channels = channels from rfl) sid'
    refine hkey.counters rfl sid (Or.inl rfl) ?_ (fun sid' hne => ?_) rfl rfl
    · rw [Core.encAt, AList.lookup_insert]
      rfl
    · rw [Core.encAt, AList.lookup_insert_ne hne]
      exact hk sid'
  | bind sid ch ch' p s _ _ hch _ _ _ _ hkey =>
    refine hkey.counters rfl sid (Or.inr (Core.encAt_eq hch).symm) ?_ (fun sid' hne => ?_)
      rfl rfl
    · rw [Core.encAt_insert rfl, if_pos rfl]
    · rw [Core.encAt_insert rfl, if_neg hne]
  | decrypt sid ch e hch he hkey =>
    have hholds : ∀ sid', Core.encAt { k with
        channels := k.channels.insert sid { ch with encrypt := true }, key := some (sid, e) } sid' =
        k.encAt sid' := by
      intro sid'
      rw [Core.encAt_insert rfl]
      split_ifs with heq
      · rw [heq, Core.encAt_eq hch]
      · rfl
    have hstep : Step k.counters { k.counters with lent := some (sid, e.s2c, e.nonceCtr) } :=
      .lend sid e.s2c e.nonceCtr (by simp [Core.counters, Core.encAt_eq hch, he, EncCtx.counter])
    simp only [Core.counters, hholds]
    exact hstep
  | sealHeld sid ch e hch he => exact Core.counters_use hch he rfl rfl rfl rfl
  | sealGone sid e hkey hch =>
    refine .useLent sid e.s2c e.nonceCtr ?_ ?_
    · simp [Core.counters, hkey, EncCtx.counter]
    · have hnone : k.encAt sid = none := hch
      simp [Core.counters, hnone]
  | silent => exact .reclaim
  | completeSealed p _ _ ch e _ hkey hch hseal =>
    exact Core.counters_use hch hseal.2 rfl hkey rfl rfl

theorem Moves.counters {ok : Label → Core → Prop} (h : Moves srv ok k k') :
    Relation.ReflTransGen Step k.counters k'.counters :=
  h.induct (P := fun a => Relation.ReflTransGen Step k.counters a.counters)
    (fun _ _ _ _ hm ha => ha.tail hm.counters) .refl

end

/-- The keys of every connection that no key was issued to twice. -/
theorem World.run_counters (srv : Srv σ) (workers : ℕ) (os : σ) (es : List Event) :
    ((World.start workers os).run srv es).Each fun k =>
      (k.hist.setups.map Prod.snd).Nodup → k.counters.Valid := by
  refine World.run_own ⟨fun a b hchs _ hhist hkey ha => ?_, fun k hchs _ hhist hkey _ => ?_⟩
    (fun h hk hnodup => ?_) workers os es
  · have hsame : b.counters = a.counters := by
      simp only [Core.counters, Core.encAt, hchs, hhist, hkey]
    rw [hsame, hhist]
    exact ha
  · have hclaims : ∀ sid key n, ¬ k.counters.Claims sid key n := by
      rintro sid key n (h | h)
      · simp [Core.counters, Core.encAt, hchs] at h
      · simp [Core.counters, hkey] at h
    have hused : k.counters.used = [] := by rw [Core.counters, hhist]
    exact ⟨fun sid k n h => absurd h (hclaims sid k n),
      fun sid _ k n _ h => absurd h (hclaims sid k n),
      fun sid k n _ h => absurd h (hclaims sid k n),
      fun u hu => absurd (hused ▸ hu) List.not_mem_nil,
      fun sid k n h => absurd h (hclaims sid k n), hused ▸ List.nodup_nil⟩
  · have hinit := KeyCounters.steps_issued_prefix h.counters
    exact KeyCounters.steps_valid h.counters (hk (hinit.sublist.nodup hnodup)) hnodup

/-- **A nonce is never used twice under a key.**  Assume that no two setups on a connection have
the same preauth hash and that different hashes give different keys.  Then no two frames that the
connection seals have the same s2c key and counter, and as long as a 64-bit counter lasts no two
have the same key and nonce. -/
theorem nonces_never_reused (srv : Srv σ) (workers : ℕ) (os : σ) (es : List Event) (id : ConnId)
    (c : Conn) (hc : ((World.start workers os).run srv es).conns.lookup id = some c)
    (hpreauth : (c.proto.hist.setups.map Prod.fst).Nodup)
    (hkeys : ∀ a ∈ c.proto.hist.setups, ∀ b ∈ c.proto.hist.setups, a.1 ≠ b.1 → a.2 ≠ b.2) :
    c.proto.hist.seals.Nodup ∧
      (c.proto.hist.seals.length < 2 ^ 64 →
        (c.proto.hist.seals.map fun u => (u.1, leBytes 8 u.2)).Nodup) := by
  have hissued : (c.proto.hist.setups.map Prod.snd).Nodup := by
    refine List.Nodup.map_on (fun a ha b hb heq => ?_) (List.Nodup.of_map _ hpreauth)
    by_contra hne
    exact hkeys a ha b hb (fun h => hne (Prod.ext h heq)) heq
  have hvalid := World.run_counters srv workers os es id c hc hissued
  refine ⟨hvalid.nodup, fun hlen => List.Nodup.map_on (fun u hu v hv heq => ?_) hvalid.nodup⟩
  have hsmall : ∀ u ∈ c.proto.hist.seals, u.2 < 256 ^ 8 := by
    intro u hu
    have hle : u.2 ≤ c.proto.hist.seals.length := (hvalid.used u hu).2
    omega
  obtain ⟨hkey, hnonce⟩ := Prod.mk.injEq .. ▸ heq
  have hctr := congrArg leNat hnonce
  rw [leNat_leBytes, leNat_leBytes, Nat.mod_eq_of_lt (hsmall u hu),
    Nat.mod_eq_of_lt (hsmall v hv)] at hctr
  exact Prod.ext hkey hctr

open Sample in
/-- A client that logs in and sends two sealed requests. -/
theorem nonces_never_reused_echo :
    ∃ c ∈ ((World.start 1 {}).run (srv false false) (logIn ++
        [.frame conn (sealed 2 (echoReq 0 0 2 2)),
          .frame conn (sealed 2 (echoReq 0 0 3 2))])).conns.lookup conn,
      c.proto.hist.setups.length = 1 ∧ c.proto.hist.seals.length = 2 ∧
        c.proto.hist.seals.Nodup := by
  obtain ⟨c, hc, hpreauth, hkeys, hsetups, hseals⟩ :
      ∃ c ∈ ((World.start 1 {}).run (srv false false) (logIn ++
          [.frame conn (sealed 2 (echoReq 0 0 2 2)),
            .frame conn (sealed 2 (echoReq 0 0 3 2))])).conns.lookup conn,
        (c.proto.hist.setups.map Prod.fst).Nodup ∧
          (∀ a ∈ c.proto.hist.setups, ∀ b ∈ c.proto.hist.setups, a.1 ≠ b.1 → a.2 ≠ b.2) ∧
          c.proto.hist.setups.length = 1 ∧ c.proto.hist.seals.length = 2 := by decide +kernel
  exact ⟨c, hc, hsetups, hseals,
    (nonces_never_reused (srv false false) 1 {} _ conn c hc hpreauth hkeys).1⟩

end RocketSmbd
