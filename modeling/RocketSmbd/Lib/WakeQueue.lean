import Mathlib.Data.List.Basic
import Mathlib.Logic.Relation

/-!
# A queue with a wake-up counter

Producers put an item into a queue and raise a counter afterwards, as two steps.  One consumer
waits for the counter, takes the whole queue when it is woken, hands out what it took, and waits
again.  `enqueued` and `handed` are history.

Under every interleaving what was put into the queue is what was handed out, what the consumer has
in hand and what is still queued, in this order (`State.Valid.order`), and a queue with items in it
has a wake-up on its way (`State.Valid.awake`).
-/

namespace WakeQueue

/-- The consumer waits, has been woken, or hands out what it took. -/
inductive Phase (α : Type)
  | waiting
  | woken
  | handing (batch : List α)

variable {α : Type}

/-- What the consumer took and has not handed out. -/
def Phase.batch : Phase α → List α
  | .waiting => []
  | .woken => []
  | .handing batch => batch

structure State (α : Type) where
  queue : List α
  counter : ℕ
  /-- The items whose producer has not raised the counter yet. -/
  posting : ℕ
  phase : Phase α
  enqueued : List α
  handed : List α

/-- The steps of producers and consumer.  A wake-up may reset the counter or leave it. -/
inductive Step : State α → State α → Prop
  | enqueue {s : State α} (a : α) :
    Step s { s with
      queue := s.queue ++ [a], posting := s.posting + 1, enqueued := s.enqueued ++ [a] }
  | raise {s : State α} (n : ℕ) (h : 0 < n) :
    Step s { s with counter := n, posting := s.posting - 1 }
  | wake {s : State α} (n : ℕ) (h : s.phase = .waiting) :
    Step s { s with counter := n, phase := .woken }
  | take {s : State α} (h : s.phase = .woken) :
    Step s { s with queue := [], phase := .handing s.queue }
  | hand {s : State α} (a : α) (rest : List α) (h : s.phase = .handing (a :: rest)) :
    Step s { s with phase := .handing rest, handed := s.handed ++ [a] }
  | wait {s : State α} (h : s.phase = .handing []) : Step s { s with phase := .waiting }

/-- Nothing is lost, doubled or out of order, and no wake-up is missed. -/
structure State.Valid (s : State α) : Prop where
  order : s.enqueued = s.handed ++ s.phase.batch ++ s.queue
  awake : s.queue ≠ [] → 0 < s.posting ∨ 0 < s.counter ∨ s.phase = .woken

theorem Step.valid {s s' : State α} (h : Step s s') (hs : s.Valid) : s'.Valid := by
  have horder := hs.order
  cases h with
  | enqueue a =>
    refine ⟨?_, fun _ => Or.inl (Nat.succ_pos _)⟩
    dsimp only
    rw [horder, List.append_assoc]
  | raise n hn => exact ⟨horder, fun _ => Or.inr (Or.inl hn)⟩
  | wake n hwaiting =>
    rw [hwaiting] at horder
    exact ⟨horder, fun _ => Or.inr (Or.inr rfl)⟩
  | take hwoken =>
    rw [hwoken] at horder
    refine ⟨?_, fun hne => absurd rfl hne⟩
    simpa [Phase.batch] using horder
  | hand a rest hhanding =>
    rw [hhanding] at horder
    refine ⟨?_, fun hne => ?_⟩
    · simpa [Phase.batch] using horder
    · rcases hs.awake hne with hp | hc | hw
      · exact Or.inl hp
      · exact Or.inr (Or.inl hc)
      · rw [hhanding] at hw
        cases hw
  | wait hdone =>
    rw [hdone] at horder
    refine ⟨horder, fun hne => ?_⟩
    rcases hs.awake hne with hp | hc | hw
    · exact Or.inl hp
    · exact Or.inr (Or.inl hc)
    · rw [hdone] at hw
      cases hw

/-- What holds after any steps. -/
theorem State.Valid.steps {s s' : State α} (hs : s.Valid) (h : Relation.ReflTransGen Step s s') :
    s'.Valid := by
  induction h with
  | refl => exact hs
  | tail _ hstep ih => exact hstep.valid ih

end WakeQueue
