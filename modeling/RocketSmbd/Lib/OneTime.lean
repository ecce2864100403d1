import Mathlib.Data.Option.Basic
import Mathlib.Logic.Function.Basic
import Mathlib.Logic.Relation

/-!
# Tokens that are taken once

A token is issued under a key, and waits there until it is taken or dropped; a new token takes the
place of the one before it.  `uses` is the history of what was issued and taken.

Whenever a token is taken it is the one that was issued latest under its key, and nothing was taken
under that key since (`OneTime.State.Valid.sound`).
-/

namespace OneTime

/-- What happens to a token. -/
inductive Use (κ α : Type)
  | issued (k : κ) (a : α)
  | taken (k : κ) (a : α)
  deriving DecidableEq

variable {κ α : Type} [DecidableEq κ]

/-- The token under `k` after one more use, if the one before it was `o`. -/
def Use.next (k : κ) (o : Option α) : Use κ α → Option α
  | .issued k' a => if k' = k then some a else o
  | .taken k' _ => if k' = k then none else o

/-- The token that was issued latest under `k`, unless it has been taken. -/
def outstanding (k : κ) (uses : List (Use κ α)) : Option α := uses.foldl (Use.next k) none

@[simp] theorem outstanding_append (k : κ) (uses : List (Use κ α)) (u : Use κ α) :
    outstanding k (uses ++ [u]) = u.next k (outstanding k uses) := by
  simp [outstanding]

/-- Every token was outstanding when it was taken. -/
def Sound (uses : List (Use κ α)) : Prop :=
  ∀ pre k a post, uses = pre ++ .taken k a :: post → outstanding k pre = some a

theorem Sound.nil : Sound ([] : List (Use κ α)) := by
  intro pre k a post h
  simp at h

/-- One more use, which takes only what is outstanding. -/
theorem Sound.append {uses : List (Use κ α)} (h : Sound uses) (u : Use κ α)
    (hu : ∀ k a, u = .taken k a → outstanding k uses = some a) : Sound (uses ++ [u]) := by
  intro pre k a post heq
  rcases List.eq_nil_or_concat post with rfl | ⟨post, v, rfl⟩
  · obtain ⟨rfl, hlast⟩ := List.append_inj' heq rfl
    exact hu k a (List.cons.inj hlast).1
  · have hsplit : uses ++ [u] = (pre ++ .taken k a :: post) ++ [v] := by simpa using heq
    exact h pre k a post (List.append_inj' hsplit rfl).1

/-- Which token waits under which key, and what happened so far. -/
structure State (κ α : Type) where
  waiting : κ → Option α
  uses : List (Use κ α)

/-- The tokens that wait are outstanding. -/
structure State.Valid (s : State κ α) : Prop where
  sound : Sound s.uses
  waiting : ∀ k a, s.waiting k = some a → outstanding k s.uses = some a

inductive Step : State κ α → State κ α → Prop
  | issue {s : State κ α} (k : κ) (a : α) :
    Step s ⟨Function.update s.waiting k (some a), s.uses ++ [.issued k a]⟩
  | take {s : State κ α} (k : κ) (a : α) (h : s.waiting k = some a) :
    Step s ⟨Function.update s.waiting k none, s.uses ++ [.taken k a]⟩
  | drop {s : State κ α} (waiting : κ → Option α)
      (h : ∀ k, waiting k = none ∨ waiting k = s.waiting k) : Step s { s with waiting }

theorem Step.valid {s s' : State κ α} (h : Step s s') (hs : s.Valid) : s'.Valid := by
  cases h with
  | issue k a =>
    refine ⟨hs.sound.append _ fun _ _ heq => by simp at heq, fun k' b hb => ?_⟩
    dsimp only at hb
    rw [outstanding_append, Use.next]
    by_cases hk : k' = k
    · rw [hk, Function.update_self] at hb
      rw [if_pos hk.symm, hb]
    · rw [Function.update_of_ne hk] at hb
      rw [if_neg fun h => hk h.symm]
      exact hs.waiting k' b hb
  | take k a ha =>
    refine ⟨hs.sound.append _ fun k' b heq => ?_, fun k' b hb => ?_⟩
    · obtain ⟨rfl, rfl⟩ := Use.taken.inj heq
      exact hs.waiting k a ha
    · dsimp only at hb
      rw [outstanding_append, Use.next]
      by_cases hk : k' = k
      · rw [hk, Function.update_self] at hb
        exact absurd hb (by simp)
      · rw [Function.update_of_ne hk] at hb
        rw [if_neg fun h => hk h.symm]
        exact hs.waiting k' b hb
  | drop waiting hw =>
    refine ⟨hs.sound, fun k a ha => ?_⟩
    rcases hw k with hnone | hsame
    · exact absurd (hnone.symm.trans ha) (by simp)
    · exact hs.waiting k a (hsame ▸ ha)

end OneTime
