import Mathlib.Data.List.Nodup
import Mathlib.Logic.Function.Basic
import Mathlib.Logic.Relation

/-!
# Counters under keys

Each holder has at most one key, with a counter that goes up with every use.  Keys are issued with
the counter at zero, and may be dropped at any time.  A key can also be lent out: the borrower may
use it once more after its holder has lost it.

If no key is issued twice, no pair of a key and a counter value is used twice
(`KeyCounters.steps_valid`).
-/

namespace KeyCounters

/-- Who holds which key, what is lent out and from whom, and what happened so far. -/
structure State (ι κ : Type) where
  holds : ι → Option (κ × ℕ)
  lent : Option (ι × κ × ℕ)
  issued : List κ
  used : List (κ × ℕ)

variable {ι κ : Type} {s s' : State ι κ}

/-- The key `k` with the counter at `n` is in the hands of `i`, or was when it was lent out. -/
def State.Claims (s : State ι κ) (i : ι) (k : κ) (n : ℕ) : Prop :=
  s.holds i = some (k, n) ∨ s.lent = some (i, k, n)

/-- Every key in sight was issued, has one holder, and its counter is not behind its uses, and no
counter is above the number of all uses. -/
structure State.Valid (s : State ι κ) : Prop where
  issued : ∀ i k n, s.Claims i k n → k ∈ s.issued
  single : ∀ i j k n m, s.Claims i k n → s.holds j = some (k, m) → j = i
  above : ∀ i k n m, s.Claims i k n → (k, m) ∈ s.used → m ≤ n
  used : ∀ u ∈ s.used, u.1 ∈ s.issued ∧ u.2 ≤ s.used.length
  bounded : ∀ i k n, s.Claims i k n → n ≤ s.used.length
  nodup : s.used.Nodup

/-- What a step without a use and without a new key leaves. -/
theorem State.Valid.of_claims (hs : s.Valid) (hclaims : ∀ i k n, s'.Claims i k n → s.Claims i k n)
    (hholds : ∀ i k n, s'.holds i = some (k, n) → s.holds i = some (k, n))
    (hissued : s'.issued = s.issued) (hused : s'.used = s.used) : s'.Valid where
  issued := fun i k n h => hissued ▸ hs.issued i k n (hclaims i k n h)
  single := fun i j k n m h hj => hs.single i j k n m (hclaims i k n h) (hholds j k m hj)
  above := fun i k n m h hm => hs.above i k n m (hclaims i k n h) (hused ▸ hm)
  used := by rw [hused, hissued]; exact hs.used
  bounded := fun i k n h => hused ▸ hs.bounded i k n (hclaims i k n h)
  nodup := hused ▸ hs.nodup

/-- One more use of an issued key. -/
theorem used_append {used : List (κ × ℕ)} {issued : List κ} {k : κ} {n : ℕ}
    (hused : ∀ u ∈ used, u.1 ∈ issued ∧ u.2 ≤ used.length) (hk : k ∈ issued)
    (hn : n ≤ used.length) :
    ∀ u ∈ used ++ [(k, n + 1)], u.1 ∈ issued ∧ u.2 ≤ (used ++ [(k, n + 1)]).length := by
  intro u hu
  simp only [List.length_append, List.length_singleton]
  rcases List.mem_append.1 hu with hu | hu
  · exact ⟨(hused u hu).1, Nat.le_succ_of_le (hused u hu).2⟩
  · obtain rfl := List.mem_singleton.1 hu
    exact ⟨hk, Nat.succ_le_succ hn⟩

theorem useLent_valid (hs : s.Valid) {i : ι} {k : κ} {n : ℕ}
    (hl : s.lent = some (i, k, n)) (hi : s.holds i = none) :
    State.Valid { s with lent := none, used := s.used ++ [(k, n + 1)] } := by
  have hold : ∀ j k' m,
      State.Claims { s with lent := none, used := s.used ++ [(k, n + 1)] } j k' m →
      s.holds j = some (k', m) := fun j k' m h => h.resolve_right (by simp)
  refine ⟨fun j k' m h => hs.issued j k' m (Or.inl (hold j k' m h)),
    fun j j' k' m m' h hj' => hs.single j j' k' m m' (Or.inl (hold j k' m h)) hj',
    fun j k' m m' h hm => ?_, used_append (fun u hu => hs.used u hu) (hs.issued i k n (Or.inr hl))
      (hs.bounded i k n (Or.inr hl)), fun j k' m h => ?_, ?_⟩
  · rcases List.mem_append.1 hm with hm | hm
    · exact hs.above j k' m m' (Or.inl (hold j k' m h)) hm
    · -- the key has no holder: its only one was the lender, who has lost it
      obtain ⟨rfl, rfl⟩ : k' = k ∧ m' = n + 1 := by simpa using hm
      have hj := hold j k' m h
      rw [hs.single i j k' n m (Or.inr hl) hj, hi] at hj
      exact absurd hj (by simp)
  · have hle := hs.bounded j k' m (Or.inl (hold j k' m h))
    simp only [List.length_append, List.length_singleton]
    omega
  · refine List.nodup_append.2 ⟨hs.nodup, List.nodup_singleton _, fun u hu v hv huv => ?_⟩
    rw [huv, List.mem_singleton.1 hv] at hu
    exact absurd (hs.above i k n (n + 1) (Or.inr hl) hu) (by omega)

variable [DecidableEq ι]

inductive Step : State ι κ → State ι κ → Prop
  /-- Some holders lose their keys. -/
  | keep {s : State ι κ} (holds : ι → Option (κ × ℕ))
      (h : ∀ i, holds i = none ∨ holds i = s.holds i) : Step s { s with holds }
  | issue {s : State ι κ} (i : ι) (k : κ) :
    Step s { s with
      holds := Function.update s.holds i (some (k, 0)), issued := s.issued ++ [k] }
  | lend {s : State ι κ} (i : ι) (k : κ) (n : ℕ) (h : s.holds i = some (k, n)) :
    Step s { s with lent := some (i, k, n) }
  | reclaim {s : State ι κ} : Step s { s with lent := none }
  | use {s : State ι κ} (i : ι) (k : κ) (n : ℕ) (h : s.holds i = some (k, n)) :
    Step s { s with
      holds := Function.update s.holds i (some (k, n + 1)), lent := none
      used := s.used ++ [(k, n + 1)] }
  | useLent {s : State ι κ} (i : ι) (k : κ) (n : ℕ) (h : s.lent = some (i, k, n))
      (hi : s.holds i = none) :
    Step s { s with lent := none, used := s.used ++ [(k, n + 1)] }

theorem Step.issued_prefix (h : Step s s') : s.issued <+: s'.issued := by
  cases h with
  | issue => exact List.prefix_append _ _
  | _ => exact List.prefix_refl _

theorem issue_valid (hs : s.Valid) (i : ι) {k : κ} (hk : k ∉ s.issued) :
    State.Valid { s with
      holds := Function.update s.holds i (some (k, 0)), issued := s.issued ++ [k] } := by
  -- what is not the new key was there before
  have hold : ∀ j k' n, State.Claims { s with
      holds := Function.update s.holds i (some (k, 0)), issued := s.issued ++ [k] } j k' n →
      (j = i ∧ k' = k ∧ n = 0) ∨ s.Claims j k' n := by
    rintro j k' n (h | h)
    · by_cases hj : j = i
      · subst hj
        obtain ⟨rfl, rfl⟩ : k = k' ∧ 0 = n := by simpa using h
        exact Or.inl ⟨rfl, rfl, rfl⟩
      · have h : Function.update s.holds i (some (k, 0)) j = some (k', n) := h
        rw [Function.update_of_ne hj] at h
        exact Or.inr (Or.inl h)
    · exact Or.inr (Or.inr h)
  refine ⟨fun j k' n h => ?_, fun j j' k' n m h hj' => ?_, fun j k' n m h hm => ?_, fun u hu => ?_,
    fun j k' n h => ?_, hs.nodup⟩
  · rcases hold j k' n h with ⟨-, rfl, -⟩ | h
    · exact List.mem_append_right _ (List.mem_singleton_self k')
    · exact List.mem_append_left _ (hs.issued j k' n h)
  · replace hj' : Function.update s.holds i (some (k, 0)) j' = some (k', m) := hj'
    by_cases heq : j' = i
    · obtain ⟨rfl, -⟩ : k = k' ∧ 0 = m := by simpa [heq] using hj'
      rcases hold j k n h with ⟨rfl, -, -⟩ | h
      · exact heq
      · exact absurd (hs.issued j k n h) hk
    · rw [Function.update_of_ne heq] at hj'
      rcases hold j k' n h with ⟨-, rfl, -⟩ | h
      · exact absurd (hs.issued j' k' m (Or.inl hj')) hk
      · exact hs.single j j' k' n m h hj'
  · rcases hold j k' n h with ⟨-, rfl, -⟩ | h
    · exact absurd (hs.used _ hm).1 hk
    · exact hs.above j k' n m h hm
  · exact ⟨List.mem_append_left _ (hs.used u hu).1, (hs.used u hu).2⟩
  · rcases hold j k' n h with ⟨-, -, rfl⟩ | h
    · exact Nat.zero_le _
    · exact hs.bounded j k' n h

theorem use_valid (hs : s.Valid) {i : ι} {k : κ} {n : ℕ} (hi : s.holds i = some (k, n)) :
    State.Valid { s with
      holds := Function.update s.holds i (some (k, n + 1)), lent := none
      used := s.used ++ [(k, n + 1)] } := by
  have hold : ∀ j k' m, Function.update s.holds i (some (k, n + 1)) j = some (k', m) →
      ∃ m' ≤ m, s.holds j = some (k', m') ∧ (j = i → k' = k ∧ m = n + 1) := by
    intro j k' m h
    by_cases hj : j = i
    · subst hj
      obtain ⟨rfl, rfl⟩ : k = k' ∧ n + 1 = m := by simpa using h
      exact ⟨n, Nat.le_succ n, hi, fun _ => ⟨rfl, rfl⟩⟩
    · rw [Function.update_of_ne hj] at h
      exact ⟨m, Nat.le_refl m, h, fun heq => absurd heq hj⟩
  refine ⟨fun j k' m h => ?_, fun j j' k' m m' h hj' => ?_, fun j k' m m' h hm => ?_,
    used_append (fun u hu => hs.used u hu) (hs.issued i k n (Or.inl hi))
      (hs.bounded i k n (Or.inl hi)), fun j k' m h => ?_, ?_⟩
  · obtain ⟨m', -, h', -⟩ := hold j k' m (h.resolve_right (by simp))
    exact hs.issued j k' m' (Or.inl h')
  · obtain ⟨m₁, -, h₁, -⟩ := hold j k' m (h.resolve_right (by simp))
    obtain ⟨m₂, -, h₂, -⟩ := hold j' k' m' hj'
    exact hs.single j j' k' m₁ m₂ (Or.inl h₁) h₂
  · obtain ⟨m₁, hle, h₁, hsame⟩ := hold j k' m (h.resolve_right (by simp))
    rcases List.mem_append.1 hm with hm | hm
    · exact Nat.le_trans (hs.above j k' m₁ m' (Or.inl h₁) hm) hle
    · obtain ⟨rfl, rfl⟩ : k' = k ∧ m' = n + 1 := by simpa using hm
      exact Nat.le_of_eq (hsame (hs.single i j k' n m₁ (Or.inl hi) h₁)).2.symm
  · obtain ⟨m₁, -, h₁, hsame⟩ := hold j k' m (h.resolve_right (by simp))
    simp only [List.length_append, List.length_singleton]
    by_cases heq : j = i
    · rw [(hsame heq).2]
      exact Nat.succ_le_succ (hs.bounded i k n (Or.inl hi))
    · have h₂ : s.holds j = some (k', m) := by
        simpa [Function.update_of_ne heq] using h.resolve_right (by simp)
      exact Nat.le_succ_of_le (hs.bounded j k' m (Or.inl h₂))
  · refine List.nodup_append.2 ⟨hs.nodup, List.nodup_singleton _, fun u hu v hv huv => ?_⟩
    rw [huv, List.mem_singleton.1 hv] at hu
    exact absurd (hs.above i k n (n + 1) (Or.inl hi) hu) (by omega)

theorem Step.valid (h : Step s s') (hs : s.Valid) (hn : s'.issued.Nodup) :
    s'.Valid := by
  cases h with
  | keep holds h =>
    have hholds : ∀ i k n, holds i = some (k, n) → s.holds i = some (k, n) := by
      intro i k n hi
      rcases h i with h | h
      · exact absurd (h.symm.trans hi) (by simp)
      · exact h ▸ hi
    exact hs.of_claims (fun i k n => Or.imp_left (hholds i k n)) hholds rfl rfl
  | issue i k =>
    refine issue_valid hs i fun hmem => ?_
    exact (List.nodup_append.1 hn).2.2 k hmem k (List.mem_singleton_self k) rfl
  | lend i k n hi =>
    refine hs.of_claims (fun j k' m hc => ?_) (fun _ _ _ => id) rfl rfl
    rcases hc with hc | hc
    · exact Or.inl hc
    · obtain ⟨rfl, rfl, rfl⟩ : i = j ∧ k = k' ∧ n = m := by simpa using hc
      exact Or.inl hi
  | reclaim =>
    exact hs.of_claims (fun _ _ _ hc => Or.inl (hc.resolve_right (by simp))) (fun _ _ _ => id)
      rfl rfl
  | use i k n hi => exact use_valid hs hi
  | useLent i k n hl hi => exact useLent_valid hs hl hi

theorem steps_issued_prefix (h : Relation.ReflTransGen Step s s') :
    s.issued <+: s'.issued := by
  induction h with
  | refl => exact List.prefix_refl _
  | tail _ hstep ih => exact ih.trans hstep.issued_prefix

/-- **If no key is issued twice, no pair of a key and a counter value is used twice.** -/
theorem steps_valid (h : Relation.ReflTransGen Step s s') (hs : s.Valid)
    (hn : s'.issued.Nodup) : s'.Valid := by
  induction h with
  | refl => exact hs
  | tail _ hstep ih => exact hstep.valid (ih (hstep.issued_prefix.sublist.nodup hn)) hn

end KeyCounters
