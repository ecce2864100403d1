import RocketSmbd.Smb2.Proto

/-!
# The MessageId window (`consume_msg_ids`, `smb2/handlers.rs`)

Every MessageId is used once per connection.  `msgLow` and `msgSeen` remember the used ids: all
below `msgLow`, and those in `msgSeen`.  `usedIds` is the set they stand for: sliding the window
keeps it, giving up a gap only adds to it, and a call is accepted only for ids outside it.

* `slideLow_spec`, `compactIds_spec`: what the two loops do, and that they end by their own exit
  condition.
* `consumeMsgIds_accepted`: one accepted call.
* `consumeAll_honoured_once`: any sequence of calls.
-/

namespace RocketSmbd

variable {low : ℕ} {pc : ProtoConn} {seen : Finset ℕ}

/-- How far past the lowest unused MessageId a request may reach. -/
def msgWindow : ℕ := 65536
/-- With more ids than this above a gap, the gap is given up. -/
def msgSeenMax : ℕ := 4096

/-- `while msg_seen.remove(&msg_low) { msg_low += 1 }`; each round removes an id, so `seen.card`
rounds are enough. -/
def slideLow : ℕ → ℕ → Finset ℕ → ℕ × Finset ℕ
  | 0, low, seen => (low, seen)
  | fuel + 1, low, seen =>
    if low ∈ seen then slideLow fuel (low + 1) (seen.erase low) else (low, seen)

/-- The lowest remembered id. -/
def lowest (low : ℕ) (seen : Finset ℕ) : ℕ := if h : seen.Nonempty then seen.min' h else low

/-- The compaction loop: slide the window over used ids, and give up the gap below the lowest
remembered one while too many are remembered. -/
def compactIds : ℕ → ℕ → Finset ℕ → ℕ × Finset ℕ
  | 0, low, seen => (low, seen)
  | fuel + 1, low, seen =>
    let (low, seen) := slideLow seen.card low seen
    if seen.card ≤ msgSeenMax then (low, seen) else compactIds fuel (lowest low seen) seen

/-- The number of ids a request uses. -/
def idCount (charge : UInt16) : ℕ := max charge.toNat 1

/-- Record MessageIds `id .. id + max(charge, 1)` as used.  False if any was already used, is
below the window, or lies beyond it. -/
def consumeMsgIds (pc : ProtoConn) (id : UInt64) (charge : UInt16) : Bool × ProtoConn :=
  let stop := id.toNat + idCount charge
  if 2 ^ 64 ≤ stop then (false, pc)
  else if id.toNat < pc.msgLow ∨ min (pc.msgLow + msgWindow) (2 ^ 64 - 1) < stop then (false, pc)
  else if (pc.msgSeen ∩ Finset.Ico id.toNat stop).Nonempty then (false, pc)
  else
    let seen := pc.msgSeen ∪ Finset.Ico id.toNat stop
    let (msgLow, msgSeen) := compactIds (seen.card + 1) pc.msgLow seen
    (true, { pc with msgLow, msgSeen })

/-- The ids of a call. -/
def callIds (call : UInt64 × UInt16) : Finset ℕ :=
  Finset.Ico call.1.toNat (call.1.toNat + idCount call.2)

/-- A call uses its own id, and with a charge as many as that from it on. -/
theorem mem_callIds {call : UInt64 × UInt16} {i : ℕ} : i ∈ callIds call ↔
    i = call.1.toNat ∨ call.1.toNat ≤ i ∧ i < call.1.toNat + call.2.toNat := by
  simp only [callIds, idCount, Finset.mem_Ico]
  omega

/-- One more call: the calls accepted so far, the latest first, and the state after them. -/
def consumeNext (r : List (UInt64 × UInt16) × ProtoConn) (call : UInt64 × UInt16) :
    List (UInt64 × UInt16) × ProtoConn :=
  match consumeMsgIds r.2 call.1 call.2 with
  | (true, pc) => (call :: r.1, pc)
  | (false, pc) => (r.1, pc)

/-- A sequence of calls. -/
def consumeAll (pc : ProtoConn) (calls : List (UInt64 × UInt16)) :
    List (UInt64 × UInt16) × ProtoConn :=
  calls.foldl consumeNext ([], pc)

/-! ### The set of used ids -/

/-- The ids that `low` and `seen` remember as used. -/
def usedIds (low : ℕ) (seen : Finset ℕ) : Set ℕ := {i | i < low ∨ i ∈ seen}

/-- What both loops keep: the window moves up, remembers less, forgets nothing, stays above what
it has passed, and passes no id it has not remembered. -/
structure Advanced (low : ℕ) (seen : Finset ℕ) (out : ℕ × Finset ℕ) : Prop where
  low_le : low ≤ out.1
  subset : out.2 ⊆ seen
  used : usedIds low seen ⊆ usedIds out.1 out.2
  below : ∀ B, low ≤ B → (∀ i ∈ seen, i < B) → out.1 ≤ B

theorem Advanced.refl (low : ℕ) (seen : Finset ℕ) : Advanced low seen (low, seen) :=
  ⟨le_rfl, subset_rfl, subset_rfl, fun _ h _ => h⟩

theorem Advanced.trans {mid out : ℕ × Finset ℕ}
    (h₁ : Advanced low seen mid) (h₂ : Advanced mid.1 mid.2 out) : Advanced low seen out where
  low_le := h₁.low_le.trans h₂.low_le
  subset := h₂.subset.trans h₁.subset
  used := h₁.used.trans h₂.used
  below B hlow hseen :=
    h₂.below B (h₁.below B hlow hseen) fun i hi => hseen i (h₁.subset hi)

theorem advanced_erase_low (h : low ∈ seen) :
    Advanced low seen (low + 1, seen.erase low) where
  low_le := Nat.le_succ low
  subset := Finset.erase_subset low seen
  used := by
    intro i hi
    rcases hi with hlt | hmem
    · exact Or.inl (Nat.lt_succ_of_lt hlt)
    · by_cases hil : i = low
      · exact Or.inl (by omega)
      · exact Or.inr (Finset.mem_erase.2 ⟨hil, hmem⟩)
  below B _ hseen := hseen low h

theorem advanced_lowest (h : ∀ i ∈ seen, low ≤ i) :
    Advanced low seen (lowest low seen, seen) := by
  unfold lowest
  split_ifs with hne
  · refine ⟨h _ (seen.min'_mem hne), subset_rfl, ?_, fun B _ hB => (hB _ (seen.min'_mem hne)).le⟩
    intro i hi
    rcases hi with hlt | hmem
    · exact Or.inl (hlt.trans_le (h _ (seen.min'_mem hne)))
    · exact Or.inr hmem
  · exact Advanced.refl low seen

/-- The inner loop only advances, and with a round for each remembered id it ends because `low`
is not remembered. -/
theorem slideLow_spec (fuel low : ℕ) (seen : Finset ℕ) (hfuel : seen.card ≤ fuel) :
    Advanced low seen (slideLow fuel low seen) ∧
      (slideLow fuel low seen).1 ∉ (slideLow fuel low seen).2 := by
  induction fuel generalizing low seen with
  | zero =>
    have hempty : seen = ∅ := Finset.card_eq_zero.1 (Nat.le_zero.1 hfuel)
    subst hempty
    exact ⟨Advanced.refl low ∅, Finset.notMem_empty low⟩
  | succ fuel ih =>
    unfold slideLow
    split_ifs with hmem
    · have hcard : (seen.erase low).card ≤ fuel := by
        rw [Finset.card_erase_of_mem hmem]
        omega
      obtain ⟨hadv, hexit⟩ := ih (low + 1) (seen.erase low) hcard
      exact ⟨(advanced_erase_low hmem).trans hadv, hexit⟩
    · exact ⟨Advanced.refl low seen, hmem⟩

/-- Once every remembered id is at or above `low`, the inner loop leaves only ids above it. -/
theorem slideLow_above (h : ∀ i ∈ seen, low ≤ i) :
    ∀ i ∈ (slideLow seen.card low seen).2, (slideLow seen.card low seen).1 < i := by
  suffices hle : ∀ (fuel low : ℕ) (seen : Finset ℕ), (∀ i ∈ seen, low ≤ i) →
      ∀ i ∈ (slideLow fuel low seen).2, (slideLow fuel low seen).1 ≤ i by
    intro i hi
    refine lt_of_le_of_ne (hle _ _ _ h i hi) fun heq => ?_
    exact (slideLow_spec seen.card low seen le_rfl).2 (heq ▸ hi)
  intro fuel
  induction fuel with
  | zero => exact fun low seen h => h
  | succ fuel ih =>
    intro low seen h
    unfold slideLow
    split_ifs with hmem
    · refine ih (low + 1) (seen.erase low) fun i hi => ?_
      obtain ⟨hne, hi⟩ := Finset.mem_erase.1 hi
      have := h i hi
      omega
    · exact h

/-- The state in which the compaction loop ends. -/
structure Compacted (out : ℕ × Finset ℕ) : Prop where
  few : out.2.card ≤ msgSeenMax
  above : ∀ i ∈ out.2, out.1 < i

theorem slideLow_card_lt (h : low ∈ seen) :
    (slideLow seen.card low seen).2.card < seen.card := by
  cases hs : seen.card with
  | zero => exact absurd (Finset.card_eq_zero.1 hs ▸ h) (Finset.notMem_empty low)
  | succ n =>
    have hcard : (seen.erase low).card = n := by
      rw [Finset.card_erase_of_mem h, hs, Nat.add_sub_cancel]
    rw [slideLow, if_pos h]
    have hsub := (slideLow_spec n (low + 1) (seen.erase low) hcard.le).1.subset
    exact Nat.lt_succ_of_le ((Finset.card_le_card hsub).trans hcard.le)

theorem lowest_mem (low : ℕ) (h : 0 < seen.card) : lowest low seen ∈ seen := by
  have hne : seen.Nonempty := Finset.card_pos.1 h
  rw [lowest, dif_pos hne]
  exact seen.min'_mem hne

theorem lowest_le {low i : ℕ} (h : i ∈ seen) : lowest low seen ≤ i := by
  have hne : seen.Nonempty := ⟨i, h⟩
  rw [lowest, dif_pos hne]
  exact seen.min'_le i h

/-- Rounds the compaction loop can take: after the first one, `low` is remembered whenever the
loop goes on, so every further round forgets an id. -/
def roundsLeft (low : ℕ) (seen : Finset ℕ) : ℕ := seen.card + if low ∈ seen then 0 else 1

theorem roundsLeft_le (low : ℕ) (seen : Finset ℕ) : roundsLeft low seen ≤ seen.card + 1 := by
  unfold roundsLeft
  split_ifs <;> omega

/-- A round that does not end the loop leaves fewer rounds. -/
theorem roundsLeft_round (hmany : msgSeenMax < (slideLow seen.card low seen).2.card) :
    roundsLeft (lowest (slideLow seen.card low seen).1 (slideLow seen.card low seen).2)
      (slideLow seen.card low seen).2 < roundsLeft low seen := by
  have hlow := lowest_mem (slideLow seen.card low seen).1 (Nat.zero_lt_of_lt hmany)
  have hcard := Finset.card_le_card (slideLow_spec seen.card low seen le_rfl).1.subset
  unfold roundsLeft
  rw [if_pos hlow]
  split_ifs with hmem
  · exact slideLow_card_lt hmem
  · omega

section

variable (fuel low : ℕ) (seen : Finset ℕ)

theorem compactIds_succ :
    compactIds (fuel + 1) low seen =
      if (slideLow seen.card low seen).2.card ≤ msgSeenMax then slideLow seen.card low seen
      else compactIds fuel
        (lowest (slideLow seen.card low seen).1 (slideLow seen.card low seen).2)
        (slideLow seen.card low seen).2 := rfl

/-- The compaction loop only advances, and ends by its own exit condition. -/
theorem compactIds_spec (h : ∀ i ∈ seen, low ≤ i)
    (hfuel : roundsLeft low seen ≤ fuel) (hpos : 0 < fuel) :
    Advanced low seen (compactIds fuel low seen) ∧ Compacted (compactIds fuel low seen) := by
  induction fuel generalizing low seen with
  | zero => exact absurd hpos (lt_irrefl 0)
  | succ fuel ih =>
    obtain ⟨hadv, -⟩ := slideLow_spec seen.card low seen le_rfl
    have habove := slideLow_above h
    rw [compactIds_succ]
    split_ifs with hfew
    · exact ⟨hadv, hfew, habove⟩
    · have hround := roundsLeft_round (not_le.1 hfew)
      have hle : ∀ i ∈ (slideLow seen.card low seen).2,
          lowest (slideLow seen.card low seen).1 (slideLow seen.card low seen).2 ≤ i :=
        fun i hi => lowest_le hi
      have hrest : 0 < roundsLeft
          (lowest (slideLow seen.card low seen).1 (slideLow seen.card low seen).2)
          (slideLow seen.card low seen).2 := by
        unfold roundsLeft
        omega
      obtain ⟨hadv', hdone⟩ := ih _ _ hle (by omega) (by omega)
      exact ⟨(hadv.trans (advanced_lowest fun i hi => (habove i hi).le)).trans hadv', hdone⟩

/-- More rounds than needed change nothing: the loop has ended. -/
theorem compactIds_fuel (hfuel : roundsLeft low seen ≤ fuel)
    (hpos : 0 < fuel) : compactIds (fuel + 1) low seen = compactIds fuel low seen := by
  induction fuel generalizing low seen with
  | zero => exact absurd hpos (lt_irrefl 0)
  | succ fuel ih =>
    rw [compactIds_succ (fuel + 1), compactIds_succ fuel low seen]
    split_ifs with hfew
    · rfl
    · have hround := roundsLeft_round (not_le.1 hfew)
      have hrest : 0 < roundsLeft
          (lowest (slideLow seen.card low seen).1 (slideLow seen.card low seen).2)
          (slideLow seen.card low seen).2 := by
        unfold roundsLeft
        omega
      exact ih _ _ (by omega) (by omega)

end

/-! ### One call -/

/-- The window of a connection: few remembered ids, all inside the window, all below `2 ^ 64`. -/
structure WindowOk (pc : ProtoConn) : Prop where
  few : pc.msgSeen.card ≤ msgSeenMax
  inside : ∀ i ∈ pc.msgSeen, pc.msgLow < i ∧ i ≤ pc.msgLow + msgWindow
  bounded : ∀ i ∈ pc.msgSeen, i < 2 ^ 64 - 1
  low_lt : pc.msgLow < 2 ^ 64

theorem windowOk_new {σ : Type} (srv : Srv σ) (wid idx : ℕ) (gen : UInt16) :
    WindowOk (ProtoConn.new srv wid idx gen) where
  few := Nat.zero_le _
  inside := fun _ hi => absurd hi (Finset.notMem_empty _)
  bounded := fun _ hi => absurd hi (Finset.notMem_empty _)
  low_lt := Nat.two_pow_pos 64

theorem consumeMsgIds_refused (pc : ProtoConn) (id : UInt64) (charge : UInt16)
    (h : (consumeMsgIds pc id charge).1 = false) : (consumeMsgIds pc id charge).2 = pc := by
  revert h
  unfold consumeMsgIds
  dsimp only
  split_ifs <;> simp

/-- An accepted call uses ids that were not used, remembers them, and keeps the window. -/
theorem consumeMsgIds_accepted (hok : WindowOk pc) (id : UInt64)
    (charge : UInt16) (h : (consumeMsgIds pc id charge).1 = true) :
    (∀ i ∈ callIds (id, charge), i ∉ usedIds pc.msgLow pc.msgSeen) ∧
      (∀ i ∈ callIds (id, charge), i ∈ usedIds (consumeMsgIds pc id charge).2.msgLow
        (consumeMsgIds pc id charge).2.msgSeen) ∧
      usedIds pc.msgLow pc.msgSeen ⊆ usedIds (consumeMsgIds pc id charge).2.msgLow
        (consumeMsgIds pc id charge).2.msgSeen ∧
      WindowOk (consumeMsgIds pc id charge).2 := by
  revert h
  unfold consumeMsgIds
  dsimp only
  split_ifs with hover hrange hused
  · simp
  · simp
  · simp
  intro _
  simp only [not_or, not_lt] at hrange
  obtain ⟨hid, hstop⟩ := hrange
  set stop := id.toNat + idCount charge with hstopdef
  set seen := pc.msgSeen ∪ Finset.Ico id.toNat stop with hseen
  have hstopW : stop ≤ pc.msgLow + msgWindow := hstop.trans (min_le_left _ _)
  have hstopM : stop ≤ 2 ^ 64 - 1 := hstop.trans (min_le_right _ _)
  have hge : ∀ i ∈ seen, pc.msgLow ≤ i := by
    intro i hi
    rcases Finset.mem_union.1 hi with hi | hi
    · exact (hok.inside i hi).1.le
    · exact hid.trans (Finset.mem_Ico.1 hi).1
  obtain ⟨hadv, hdone⟩ := compactIds_spec (seen.card + 1) pc.msgLow seen hge
    (roundsLeft_le _ _) (Nat.succ_pos _)
  have hcall : callIds (id, charge) = Finset.Ico id.toNat stop := rfl
  refine ⟨?_, ?_, ?_, ?_⟩
  · intro i hi hmem
    rw [hcall] at hi
    rcases hmem with hlt | hmem
    · have := (Finset.mem_Ico.1 hi).1
      omega
    · exact hused ⟨i, Finset.mem_inter.2 ⟨hmem, hi⟩⟩
  · intro i hi
    exact hadv.used (Or.inr (Finset.mem_union_right _ hi))
  · intro i hi
    rcases hi with hlt | hmem
    · exact hadv.used (Or.inl hlt)
    · exact hadv.used (Or.inr (Finset.mem_union_left _ hmem))
  · have hmem : ∀ i ∈ (compactIds (seen.card + 1) pc.msgLow seen).2,
        i ≤ pc.msgLow + msgWindow ∧ i < 2 ^ 64 - 1 := by
      intro i hi
      rcases Finset.mem_union.1 (hadv.subset hi) with hi | hi
      · exact ⟨(hok.inside i hi).2, hok.bounded i hi⟩
      · have := (Finset.mem_Ico.1 hi).2
        omega
    refine ⟨hdone.few, fun i hi => ⟨hdone.above i hi, ?_⟩, fun i hi => (hmem i hi).2, ?_⟩
    · exact (hmem i hi).1.trans (Nat.add_le_add_right hadv.low_le _)
    · -- the window never slides past the ids it has seen, and those are below `2 ^ 64 - 1`
      have hlow : (compactIds (seen.card + 1) pc.msgLow seen).1 ≤ 2 ^ 64 - 1 := by
        refine hadv.below _ (by have := hok.low_lt; omega) fun i hi => ?_
        rcases Finset.mem_union.1 hi with hi | hi
        · exact hok.bounded i hi
        · have := (Finset.mem_Ico.1 hi).2
          omega
      show (compactIds (seen.card + 1) pc.msgLow seen).1 < 2 ^ 64
      omega

theorem WindowOk.congr {pc pc' : ProtoConn} (h : WindowOk pc) (hlow : pc'.msgLow = pc.msgLow)
    (hseen : pc'.msgSeen = pc.msgSeen) : WindowOk pc' :=
  ⟨hseen ▸ h.few, hseen ▸ hlow ▸ h.inside, hseen ▸ h.bounded, hlow ▸ h.low_lt⟩

/-! ### How many ids are used -/

theorem WindowOk.used_subset (h : WindowOk pc) :
    usedIds pc.msgLow pc.msgSeen ⊆ Set.Iio (2 ^ 64) := by
  intro i hi
  rcases hi with hlt | hmem
  · exact hlt.trans h.low_lt
  · exact (h.bounded i hmem).trans_le (Nat.sub_le _ _)

theorem WindowOk.used_finite (h : WindowOk pc) :
    (usedIds pc.msgLow pc.msgSeen).Finite :=
  (Set.finite_Iio _).subset h.used_subset

theorem WindowOk.ncard_used_le (h : WindowOk pc) :
    (usedIds pc.msgLow pc.msgSeen).ncard ≤ 2 ^ 64 := by
  have hle := Set.ncard_le_ncard h.used_subset (Set.finite_Iio _)
  rwa [← Finset.coe_range, Set.ncard_coe_finset, Finset.card_range] at hle

/-- An accepted call uses at least one more id. -/
theorem consumeMsgIds_grows (hok : WindowOk pc) (id : UInt64)
    (charge : UInt16) (h : (consumeMsgIds pc id charge).1 = true) :
    (usedIds pc.msgLow pc.msgSeen).ncard < (usedIds (consumeMsgIds pc id charge).2.msgLow
      (consumeMsgIds pc id charge).2.msgSeen).ncard := by
  obtain ⟨hfresh, hused, hsub, hok'⟩ := consumeMsgIds_accepted hok id charge h
  have hid : id.toNat ∈ callIds (id, charge) := mem_callIds.2 (Or.inl rfl)
  exact Set.ncard_lt_ncard ⟨hsub, fun hback => hfresh _ hid (hback (hused _ hid))⟩ hok'.used_finite

/-! ### Sequences of calls -/

/-- What holds after any sequence of calls. -/
structure HonouredOnce (accepted : List (UInt64 × UInt16)) (pc : ProtoConn) : Prop where
  disjoint : accepted.Pairwise fun a b => Disjoint (callIds a) (callIds b)
  used : ∀ call ∈ accepted, ∀ i ∈ callIds call, i < pc.msgLow ∨ i ∈ pc.msgSeen
  window : WindowOk pc

theorem honouredOnce_next {r : List (UInt64 × UInt16) × ProtoConn} (h : HonouredOnce r.1 r.2)
    (call : UInt64 × UInt16) : HonouredOnce (consumeNext r call).1 (consumeNext r call).2 := by
  unfold consumeNext
  cases hres : consumeMsgIds r.2 call.1 call.2 with
  | mk ok pc =>
    cases ok with
    | false =>
      have hsame := consumeMsgIds_refused r.2 call.1 call.2 (by rw [hres])
      rw [hres] at hsame
      exact hsame ▸ h
    | true =>
      obtain ⟨hnew, hnow, hkeep, hwin⟩ :=
        consumeMsgIds_accepted h.window call.1 call.2 (by rw [hres])
      rw [hres] at hnow hkeep hwin
      refine ⟨List.pairwise_cons.2 ⟨fun b hb => ?_, h.disjoint⟩, ?_, hwin⟩
      · exact Finset.disjoint_left.2 fun i hi hib => hnew i hi (h.used b hb i hib)
      · intro c hc i hi
        rcases List.mem_cons.1 hc with rfl | hc
        · exact hnow i hi
        · exact hkeep (h.used c hc i hi)

theorem honouredOnce_foldl (calls : List (UInt64 × UInt16)) :
    ∀ r : List (UInt64 × UInt16) × ProtoConn, HonouredOnce r.1 r.2 →
      HonouredOnce (calls.foldl consumeNext r).1 (calls.foldl consumeNext r).2 := by
  induction calls with
  | nil => exact fun r h => h
  | cons call calls ih => exact fun r h => ih _ (honouredOnce_next h call)

/-- **Each MessageId is honoured once.**  After any sequence of calls on a fresh connection, the
id ranges of the accepted calls are pairwise disjoint and remembered, the window holds at most
`msgSeenMax` ids, all in `(msgLow, msgLow + msgWindow]`, and `msgLow` fits 64 bits; a refused call
changes nothing; and the compaction loop of a call ends by its own exit condition. -/
theorem consumeAll_honoured_once {σ : Type} (srv : Srv σ) (wid idx : ℕ) (gen : UInt16)
    (calls : List (UInt64 × UInt16)) :
    let r := consumeAll (ProtoConn.new srv wid idx gen) calls
    (r.1.Pairwise fun a b => Disjoint (callIds a) (callIds b)) ∧
      (∀ call ∈ r.1, ∀ i ∈ callIds call, i < r.2.msgLow ∨ i ∈ r.2.msgSeen) ∧
      r.2.msgSeen.card ≤ msgSeenMax ∧
      (∀ i ∈ r.2.msgSeen, r.2.msgLow < i ∧ i ≤ r.2.msgLow + msgWindow) ∧
      r.2.msgLow < 2 ^ 64 ∧
      (∀ call : UInt64 × UInt16, (consumeMsgIds r.2 call.1 call.2).1 = false →
        (consumeMsgIds r.2 call.1 call.2).2 = r.2) ∧
      (∀ call : UInt64 × UInt16, (consumeMsgIds r.2 call.1 call.2).1 = true →
        let seen := r.2.msgSeen ∪ callIds call
        ∀ fuel, seen.card + 1 ≤ fuel →
          compactIds fuel r.2.msgLow seen =
            ((consumeMsgIds r.2 call.1 call.2).2.msgLow,
              (consumeMsgIds r.2 call.1 call.2).2.msgSeen)) := by
  intro r
  have h : HonouredOnce r.1 r.2 :=
    honouredOnce_foldl calls ([], ProtoConn.new srv wid idx gen)
      ⟨List.Pairwise.nil, fun _ hc => absurd hc List.not_mem_nil, windowOk_new srv wid idx gen⟩
  refine ⟨h.disjoint, h.used, h.window.few, h.window.inside, h.window.low_lt,
    fun call => consumeMsgIds_refused r.2 call.1 call.2, ?_⟩
  intro call hacc seen fuel hfuel
  have hstep : compactIds fuel r.2.msgLow seen = compactIds (seen.card + 1) r.2.msgLow seen := by
    induction fuel, hfuel using Nat.le_induction with
    | base => rfl
    | succ fuel hfuel ih =>
      have hrounds := roundsLeft_le r.2.msgLow seen
      rw [compactIds_fuel fuel r.2.msgLow seen (by omega) (by omega), ih]
  rw [hstep]
  revert hacc
  unfold consumeMsgIds
  dsimp only
  split_ifs
  · simp
  · simp
  · simp
  · intro _
    rfl

end RocketSmbd
