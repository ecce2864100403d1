import Mathlib.Data.Set.Card
import Mathlib.Logic.Function.Basic
import Mathlib.Logic.Relation

/-!
# The life of a shared resource

A resource is set up by one holder; once it is live, other holders may join it, and it goes with
the last one that leaves.  Its count of live holders is kept by hand, so the invariant is that the
count is right (`State.Sound`): a live resource counts its live holders and has at least one, a
fresh one has exactly one holder, who is setting it up, and an absent one has no live holder.
-/

namespace SharedLife

/-- What a holder has to do with the resource. -/
inductive Role
  | none
  | owner
  | joiner
  | stale
  | live
  deriving DecidableEq

/-- Whether the resource is there; a live one has a count. -/
inductive Phase
  | absent
  | fresh
  | live (count : ℕ)
  deriving DecidableEq

/-- The resource after one live holder has left. -/
def Phase.drop : Phase → Phase
  | .live n => if n - 1 = 0 then .absent else .live (n - 1)
  | p => p

structure State (ι : Type) where
  phase : Phase
  role : ι → Role

variable {ι : Type} [DecidableEq ι]

/-- What the holder `i` can do. -/
inductive Step (i : ι) : State ι → State ι → Prop
  | create {s : State ι} (hp : s.phase = .absent) (hr : ∀ j, s.role j = .none) :
    Step i s ⟨.fresh, Function.update s.role i .owner⟩
  | createLive {s : State ι} (hp : s.phase = .absent) (hr : ∀ j, s.role j = .none) :
    Step i s ⟨.live 1, Function.update s.role i .live⟩
  | finish {s : State ι} (hp : s.phase = .fresh) (hr : s.role i = .owner) :
    Step i s ⟨.live 1, Function.update s.role i .live⟩
  | fail {s : State ι} (hr : s.role i = .owner) :
    Step i s ⟨.absent, Function.update s.role i .none⟩
  | join {s : State ι} (n : ℕ) (hp : s.phase = .live n) (hr : s.role i ≠ .live) :
    Step i s ⟨s.phase, Function.update s.role i .joiner⟩
  | joined {s : State ι} (n : ℕ) (hp : s.phase = .live n) (hr : s.role i = .joiner) :
    Step i s ⟨.live (n + 1), Function.update s.role i .live⟩
  /-- The resource went before the holder was done. -/
  | retire {s : State ι} (hp : s.phase = .absent) (hr : s.role i ≠ .live) :
    Step i s ⟨s.phase, Function.update s.role i .stale⟩
  | quit {s : State ι} (hp : s.phase ≠ .fresh) (hr : s.role i ≠ .live) :
    Step i s ⟨s.phase, Function.update s.role i .none⟩
  | leave {s : State ι} (hr : s.role i = .live) :
    Step i s ⟨s.phase.drop, Function.update s.role i .none⟩

/-- The live holders. -/
def State.lives (s : State ι) : Set ι := {i | s.role i = .live}

/-- The phase fits the roles. -/
def State.Sound (s : State ι) : Prop :=
  match s.phase with
  | .absent => s.lives = ∅
  | .fresh => ∃ i, s.role i = .owner ∧ ∀ j, j ≠ i → s.role j = .none
  | .live n => n = s.lives.ncard ∧ 0 < n ∧ ∀ i, s.role i ≠ .owner

section

variable {s : State ι} {i : ι} (p : Phase)

theorem lives_update_live : State.lives ⟨p, Function.update s.role i .live⟩ = insert i s.lives := by
  ext j
  by_cases h : j = i
  · simp [State.lives, h]
  · simp [State.lives, h]

theorem lives_update {r : Role} (hr : r ≠ .live) :
    State.lives ⟨p, Function.update s.role i r⟩ = s.lives \ {i} := by
  ext j
  by_cases h : j = i
  · simp [State.lives, h, hr]
  · simp [State.lives, h]

theorem lives_update_same {r : Role} (hr : r ≠ .live) (hi : s.role i ≠ .live) :
    State.lives ⟨p, Function.update s.role i r⟩ = s.lives := by
  rw [lives_update p hr, Set.sdiff_singleton_eq_self]
  exact hi

/-- A fresh resource has no live holder. -/
theorem State.Sound.lives_fresh (hs : s.Sound) (hp : s.phase = .fresh) : s.lives = ∅ := by
  rw [State.Sound, hp] at hs
  obtain ⟨i, hi, hother⟩ := hs
  refine Set.eq_empty_iff_forall_notMem.2 fun j (hj : s.role j = .live) => ?_
  by_cases h : j = i
  · rw [h, hi] at hj
    exact absurd hj (by simp)
  · rw [hother j h] at hj
    exact absurd hj (by simp)

/-- A holder with a live role has a live resource. -/
theorem State.Sound.live_of_role (hs : s.Sound) (hi : s.role i = .live) :
    ∃ n, s.phase = .live n ∧ 0 < n := by
  have hmem : i ∈ s.lives := hi
  cases hp : s.phase with
  | absent =>
    rw [State.Sound, hp] at hs
    rw [hs] at hmem
    exact absurd hmem (Set.notMem_empty i)
  | fresh =>
    rw [hs.lives_fresh hp] at hmem
    exact absurd hmem (Set.notMem_empty i)
  | live n =>
    rw [State.Sound, hp] at hs
    exact ⟨n, rfl, hs.2.1⟩

/-- A holder who sets the resource up, or does anything else with a fresh one, is the owner. -/
theorem State.Sound.owner_of_fresh (hs : s.Sound) (hp : s.phase = .fresh)
    (hi : s.role i ≠ .none) : s.role i = .owner ∧ ∀ j, j ≠ i → s.role j = .none := by
  rw [State.Sound, hp] at hs
  obtain ⟨j, hj, hother⟩ := hs
  by_cases h : i = j
  · exact h ▸ ⟨hj, hother⟩
  · exact absurd (hother i h) hi

/-- The first live holder. -/
theorem sound_live_one (h : s.lives = ∅) (hr : ∀ j, j ≠ i → s.role j ≠ .owner) :
    State.Sound ⟨.live 1, Function.update s.role i .live⟩ := by
  refine ⟨?_, Nat.one_pos, fun j => ?_⟩
  · rw [lives_update_live, h]
    simp
  · by_cases hj : j = i
    · simp [hj]
    · simpa [Function.update_of_ne hj] using hr j hj

/-- Someone who is not live changes to a role that is neither live nor the owner's. -/
theorem State.Sound.update_other (hs : s.Sound) (hp : s.phase ≠ .fresh) {r : Role}
    (hr : r ≠ .live) (hr' : r ≠ .owner) (hi : s.role i ≠ .live) :
    State.Sound ⟨s.phase, Function.update s.role i r⟩ := by
  cases h : s.phase with
  | absent =>
    rw [State.Sound, h] at hs
    exact (lives_update_same _ hr hi).trans hs
  | fresh => exact absurd h hp
  | live n =>
    rw [State.Sound, h] at hs
    refine ⟨?_, hs.2.1, fun j => ?_⟩
    · rw [lives_update_same _ hr hi]
      exact hs.1
    · by_cases hj : j = i
      · simp [hj, hr']
      · simpa [Function.update_of_ne hj] using hs.2.2 j

/-- The owner of a resource that is not live gives up. -/
theorem State.Sound.fail (hs : s.Sound) (hi : s.role i = .owner) :
    State.Sound ⟨.absent, Function.update s.role i .none⟩ := by
  have hlives : s.lives = ∅ := by
    cases hp : s.phase with
    | absent => rwa [State.Sound, hp] at hs
    | fresh => exact hs.lives_fresh hp
    | live n =>
      rw [State.Sound, hp] at hs
      exact absurd hi (hs.2.2 i)
  exact (lives_update_same _ (by simp) (by simp [hi])).trans hlives

theorem State.Sound.joined (hs : s.Sound) {n : ℕ} (hp : s.phase = .live n)
    (hi : s.role i = .joiner) : State.Sound ⟨.live (n + 1), Function.update s.role i .live⟩ := by
  rw [State.Sound, hp] at hs
  obtain ⟨hn, hpos, howner⟩ := hs
  have hnot : i ∉ s.lives := by simp [State.lives, hi]
  have hfinite : s.lives.Finite := Set.finite_of_ncard_pos (hn ▸ hpos)
  refine ⟨?_, Nat.succ_pos n, fun j => ?_⟩
  · rw [lives_update_live, Set.ncard_insert_of_notMem hnot hfinite, ← hn]
  · by_cases hj : j = i
    · simp [hj]
    · simpa [Function.update_of_ne hj] using howner j

theorem State.Sound.leave (hs : s.Sound) (hi : s.role i = .live) :
    State.Sound ⟨s.phase.drop, Function.update s.role i .none⟩ := by
  obtain ⟨n, hp, hpos⟩ := hs.live_of_role hi
  rw [State.Sound, hp] at hs
  obtain ⟨hn, -, howner⟩ := hs
  have hmem : i ∈ s.lives := hi
  have hcard : (s.lives \ {i}).ncard = n - 1 := by
    rw [Set.ncard_sdiff_singleton_of_mem hmem, ← hn]
  rw [hp, Phase.drop]
  split_ifs with hlast
  · -- nobody is left
    refine (lives_update _ (by simp)).trans ?_
    have hfinite : (s.lives \ {i}).Finite := (Set.finite_of_ncard_pos (hn ▸ hpos)).sdiff
    exact (Set.ncard_eq_zero hfinite).1 (hcard.trans hlast)
  · refine ⟨?_, by omega, fun j => ?_⟩
    · rw [lives_update _ (by simp), hcard]
    · by_cases hj : j = i
      · simp [hj]
      · simpa [Function.update_of_ne hj] using howner j

end

/-- **Every step keeps the count right.** -/
theorem Step.sound {s s' : State ι} {i : ι} (h : Step i s s') (hs : s.Sound) : s'.Sound := by
  have hnone : (∀ j, s.role j = .none) → s.lives = ∅ := fun hr =>
    Set.eq_empty_iff_forall_notMem.2 fun j (hj : s.role j = .live) => by simp [hr j] at hj
  cases h with
  | create _ hr =>
    refine ⟨i, by simp, fun j hj => ?_⟩
    simpa [Function.update_of_ne hj] using hr j
  | createLive _ hr => exact sound_live_one (hnone hr) fun j _ => by simp [hr j]
  | finish hp hr =>
    have hmine : s.role i ≠ .none := by simp [hr]
    have hother := (hs.owner_of_fresh hp hmine).2
    exact sound_live_one (hs.lives_fresh hp) fun j hj => by simp [hother j hj]
  | fail hr => exact hs.fail hr
  | join n hp hr | retire hp hr => exact hs.update_other (by simp [hp]) (by simp) (by simp) hr
  | joined n hp hr => exact hs.joined hp hr
  | quit hp hr => exact hs.update_other hp (by simp) (by simp) hr
  | leave hr => exact hs.leave hr

/-- A resource is fresh only after its creation, which nobody else had to do with. -/
theorem Step.fresh {s s' : State ι} {i : ι} (h : Step i s s') (hs : s.Sound)
    (hp : s'.phase = .fresh) (j : ι) : s.role j = .none := by
  cases h with
  | create _ hr => exact hr j
  | createLive | finish | fail | joined => exact absurd hp (by simp)
  | join n hlive => exact absurd (hlive.symm.trans hp) (by simp)
  | retire hno => exact absurd (hno.symm.trans hp) (by simp)
  | quit hno => exact absurd hp hno
  | leave hr =>
    obtain ⟨n, hlive, -⟩ := hs.live_of_role hr
    replace hp : s.phase.drop = .fresh := hp
    rw [hlive, Phase.drop] at hp
    split_ifs at hp

omit [DecidableEq ι] in
/-- A resource that nobody has to do with is not there. -/
theorem State.Sound.absent {s : State ι} (hs : s.Sound) (hr : ∀ i, s.role i = .none) :
    s.phase = .absent := by
  cases hp : s.phase with
  | absent => rfl
  | fresh =>
    rw [State.Sound, hp] at hs
    obtain ⟨i, hi, -⟩ := hs
    exact absurd (hr i) (by simp [hi])
  | live n =>
    rw [State.Sound, hp] at hs
    have hempty : s.lives = ∅ :=
      Set.eq_empty_iff_forall_notMem.2 fun j (hj : s.role j = .live) => by simp [hr j] at hj
    rw [hempty, Set.ncard_empty] at hs
    omega

end SharedLife
